import PassEngine.Dialect.Encoding
import PassEngine.Proofs.Json.Lossless

namespace PassEngine

open Json (Lossless faithful_record)

theorem ValueId.lossless : Lossless toJson read where
  faithful v := Lossless.uint32.faithful v.index
  ne_null _ := nofun
  read_write v := by simp [read, toJson, Lossless.uint32.read_write]

theorem BlockId.lossless : Lossless toJson read where
  faithful b := Lossless.uint32.faithful b.index
  ne_null _ := nofun
  read_write b := by simp [read, toJson, Lossless.uint32.read_write]

theorem Location.lossless : Lossless toJson read where
  faithful l := faithful_record ["filename", "line", "column"] rfl (by decide)
    (by simp [Lossless.str.faithful, Lossless.uint32.faithful])
  ne_null _ := nofun
  read_write l := by
    -- Said of any parts, so that nothing but the names of the fields is computed.
    have hread (a b c : Json) : read (.obj [("filename", a), ("line", b), ("column", c)]) = (do
        return ⟨← Json.readString a, ← Json.readUInt32 b, ← Json.readUInt32 c⟩) := rfl
    simp [toJson, hread, Lossless.str.read_write, Lossless.uint32.read_write]

end PassEngine

namespace PassEngine.Dialect

open Json (Lossless faithful_record faithful_tagged tagged readString readBool readInt64 readList
  readPair readName readOption looseUnit)

namespace Ty

mutual

theorem faithful_toJson (t : Ty) : t.toJson.Faithful := by
  cases t with
  | void | bool | label => exact .str _
  | int bits =>
    exact faithful_tagged "Int" (faithful_record ["bits"] rfl (by decide)
      (by simp [Lossless.uint8.faithful]))
  | ptr pointee => exact faithful_tagged "Ptr" (faithful_toJson pointee)
  | array len elem =>
    exact faithful_tagged "Array" (faithful_record ["len", "elem"] rfl (by decide)
      (by simp [Lossless.uint64.faithful, faithful_toJson elem]))
  | func ret params vararg =>
    have hparams : (Json.arr (listJson params)).Faithful := .arr (faithful_listJson params)
    exact faithful_tagged "Func" (faithful_record ["ret", "params", "vararg"] rfl (by decide)
      (by simp [faithful_toJson ret, hparams, Lossless.bool.faithful]))
  | struct name fields packed =>
    have hfields : (Json.arr (listJson fields)).Faithful := .arr (faithful_listJson fields)
    exact faithful_tagged "Struct" (faithful_record ["name", "fields", "packed"] rfl (by decide)
      (by simp [Lossless.str.faithful_ofOption, hfields, Lossless.bool.faithful]))

theorem faithful_listJson (ts : List Ty) : ∀ j ∈ listJson ts, j.Faithful := by
  cases ts with
  | nil => exact nofun
  | cons t ts => exact List.forall_mem_cons.2 ⟨faithful_toJson t, faithful_listJson ts⟩

end

mutual

/-- Each level of nesting of the text allows for one more type inside. -/
theorem readUpTo_toJson (t : Ty) {n : Nat} (h : t.toJson.depth < n) :
    readUpTo n t.toJson = some t := by
  -- By recursion on the type: a part has one level less in the text, and one less to be read.
  obtain _ | n := n
  · omega
  cases t with
  | void | bool | label => rfl
  | int bits =>
    have hread (j : Json) : readUpTo (n + 1) (tagged "Int" (.obj [("bits", j)])) = (do
        return int (← Json.readUInt8 j)) := rfl
    simp [toJson, hread, Lossless.uint8.read_write]
  | ptr pointee =>
    have hread (j : Json) : readUpTo (n + 1) (tagged "Ptr" j) = (do
        return ptr (← readUpTo n j)) := rfl
    simp only [toJson, tagged, Json.depth, Json.depthMembers] at h
    have hpointee := readUpTo_toJson pointee (show pointee.toJson.depth < n by omega)
    simp [toJson, hread, hpointee]
  | array len elem =>
    have hread (a b : Json) : readUpTo (n + 1) (tagged "Array" (.obj [("len", a), ("elem", b)])) =
        (do return array (← Json.readUInt64 a) (← readUpTo n b)) := rfl
    simp only [toJson, tagged, Json.depth, Json.depthMembers] at h
    have helem := readUpTo_toJson elem (show elem.toJson.depth < n by omega)
    simp [toJson, hread, Lossless.uint64.read_write, helem]
  | func ret params vararg =>
    have hread (a b c : Json) : readUpTo (n + 1)
        (tagged "Func" (.obj [("ret", a), ("params", b), ("vararg", c)])) = (do
          return func (← readUpTo n a) (← readList (readUpTo n) b) (← readBool c)) := rfl
    simp only [toJson, tagged, Json.depth, Json.depthMembers] at h
    have hret := readUpTo_toJson ret (show ret.toJson.depth < n by omega)
    have hparams := mapM_readUpTo params (show Json.depthItems (listJson params) < n by omega)
    simp [toJson, hread, hret, readList, hparams, Lossless.bool.read_write]
  | struct name fields packed =>
    have hread (a b c : Json) : readUpTo (n + 1)
        (tagged "Struct" (.obj [("name", a), ("fields", b), ("packed", c)])) = (do
          return struct (← readOption readString a) (← readList (readUpTo n) b)
            (← readBool c)) := rfl
    simp only [toJson, tagged, Json.depth, Json.depthMembers] at h
    have hfields := mapM_readUpTo fields (show Json.depthItems (listJson fields) < n by omega)
    simp [toJson, hread, Lossless.str.readOption_ofOption, readList, hfields,
      Lossless.bool.read_write]

theorem mapM_readUpTo (ts : List Ty) {n : Nat} (h : Json.depthItems (listJson ts) < n) :
    (listJson ts).mapM (readUpTo n) = some ts := by
  cases ts with
  | nil => rfl
  | cons t ts =>
    simp only [listJson, Json.depthItems, Nat.max_lt] at h
    simp [listJson, readUpTo_toJson t h.1, mapM_readUpTo ts h.2]

end

theorem lossless : Lossless toJson read where
  faithful := faithful_toJson
  ne_null t := by cases t <;> exact nofun
  read_write t := readUpTo_toJson t (Nat.lt_succ_self _)

end Ty

theorem Operand.lossless : Lossless toJson read where
  faithful o := by
    cases o with
    | value id => exact faithful_tagged "Value" (ValueId.lossless.faithful id)
    | const n => exact faithful_tagged "Const" (Lossless.int64.faithful n)
    | global name => exact faithful_tagged "Global" (.str name)
    | func name => exact faithful_tagged "Func" (.str name)
    | undef => exact .str "Undef"
  ne_null o := by cases o <;> exact nofun
  read_write o := by
    cases o with
    | value id =>
      have hread (j : Json) : read (tagged "Value" j) = (do return value (← ValueId.read j)) := rfl
      simp [toJson, hread, ValueId.lossless.read_write]
    | const n =>
      have hread (j : Json) : read (tagged "Const" j) = (do return const (← readInt64 j)) := rfl
      simp [toJson, hread, Lossless.int64.read_write]
    | _ => rfl

namespace OpKind

theorem edge_lossless : Lossless edgeJson (readPair Operand.read BlockId.read) :=
  Operand.lossless.pair BlockId.lossless

theorem faithful_toJson (k : OpKind) : k.toJson.Faithful := by
  have hoperand := Operand.lossless.faithful
  have hoperands := Operand.lossless.list.faithful
  have hoption := Operand.lossless.faithful_ofOption
  have hblock := BlockId.lossless.faithful
  have hedges := edge_lossless.list.faithful
  have hty := Ty.lossless.faithful
  have hloc := Location.lossless.faithful
  cases k
  all_goals
    refine faithful_tagged _ (.obj ?_ ?_)
    · simp only [List.map_cons, List.map_nil]
      decide
    · simp [hoperand, hoperands, hoption, hblock, hedges, hty, hloc, Lossless.str.faithful,
        Lossless.bool.faithful]

theorem read_toJson (k : OpKind) : read k.toJson = some k := by
  have hoperand := Operand.lossless.read_write
  have hoperands := Operand.lossless.list.read_write
  have hoption := Operand.lossless.readOption_ofOption
  have hblock := BlockId.lossless.read_write
  cases k with
  | binary op lhs rhs =>
    have hread (a b c : Json) : read (tagged "Binary" (.obj [("op", a), ("lhs", b), ("rhs", c)])) =
        (do return binary (← readName looseUnit arithNames a) (← Operand.read b)
              (← Operand.read c)) := rfl
    simp [toJson, hread, (Lossless.name looseUnit arithNames).read_write, hoperand]
  | cmp op lhs rhs =>
    have hread (a b c : Json) : read (tagged "Cmp" (.obj [("pred", a), ("lhs", b), ("rhs", c)])) =
        (do return cmp (← readName looseUnit Compare.names a) (← Operand.read b)
              (← Operand.read c)) := rfl
    simp [toJson, hread, (Lossless.name looseUnit Compare.names).read_write, hoperand]
  | unary op operand =>
    have hread (a b : Json) : read (tagged "Unary" (.obj [("op", a), ("operand", b)])) =
        (do return unary (← readName looseUnit Negation.names a) (← Operand.read b)) := rfl
    simp [toJson, hread, (Lossless.name looseUnit Negation.names).read_write, hoperand]
  | convert op operand =>
    have hread (a b : Json) : read (tagged "Convert" (.obj [("kind", a), ("operand", b)])) =
        (do return convert (← readName looseUnit convertNames a) (← Operand.read b)) := rfl
    simp [toJson, hread, (Lossless.name looseUnit convertNames).read_write, hoperand]
  | load ptr =>
    have hread (a : Json) : read (tagged "Load" (.obj [("ptr", a)])) =
        (do return load (← Operand.read a)) := rfl
    simp [toJson, hread, hoperand]
  | store value ptr =>
    have hread (a b : Json) : read (tagged "Store" (.obj [("value", a), ("ptr", b)])) =
        (do return store (← Operand.read a) (← Operand.read b)) := rfl
    simp [toJson, hread, hoperand]
  | elementPtr base indices =>
    have hread (a b : Json) : read (tagged "ElementPtr" (.obj [("base", a), ("indices", b)])) =
        (do return elementPtr (← Operand.read a) (← readList Operand.read b)) := rfl
    simp [toJson, hread, hoperand, hoperands]
  | alloca ty count =>
    have hread (a b : Json) : read (tagged "Alloca" (.obj [("alloc_ty", a), ("count", b)])) =
        (do return alloca (← Ty.read a) (← readOption Operand.read b)) := rfl
    simp [toJson, hread, Ty.lossless.read_write, hoption]
  | call callee args knownInlined =>
    have hread (a b c : Json) : read
        (tagged "Call" (.obj [("callee", a), ("args", b), ("known_inlined", c)])) =
        (do return call (← readString a) (← readList Operand.read b) (← readBool c)) := rfl
    simp [toJson, hread, hoperands, Lossless.str.read_write, Lossless.bool.read_write]
  | callIndirect target args =>
    have hread (a b : Json) : read (tagged "CallIndirect" (.obj [("target", a), ("args", b)])) =
        (do return callIndirect (← Operand.read a) (← readList Operand.read b)) := rfl
    simp [toJson, hread, hoperand, hoperands]
  | intrinsic name args =>
    have hread (a b : Json) : read (tagged "Intrinsic" (.obj [("name", a), ("args", b)])) =
        (do return intrinsic (← readString a) (← readList Operand.read b)) := rfl
    simp [toJson, hread, hoperands, Lossless.str.read_write]
  | cast operand =>
    have hread (a : Json) : read (tagged "Cast" (.obj [("operand", a)])) =
        (do return cast (← Operand.read a)) := rfl
    simp [toJson, hread, hoperand]
  | select cond onTrue onFalse =>
    have hread (a b c : Json) : read
        (tagged "Select" (.obj [("cond", a), ("on_true", b), ("on_false", c)])) =
        (do return select (← Operand.read a) (← Operand.read b) (← Operand.read c)) := rfl
    simp [toJson, hread, hoperand]
  | phi incoming =>
    have hread (a : Json) : read (tagged "Phi" (.obj [("incoming", a)])) =
        (do return phi (← readList (readPair Operand.read BlockId.read) a)) := rfl
    simp [toJson, hread, edge_lossless.list.read_write]
  | ret value =>
    have hread (a : Json) : read (tagged "Ret" (.obj [("value", a)])) =
        (do return ret (← readOption Operand.read a)) := rfl
    simp [toJson, hread, hoption]
  | br dest =>
    have hread (a : Json) : read (tagged "Br" (.obj [("dest", a)])) =
        (do return br (← BlockId.read a)) := rfl
    simp [toJson, hread, hblock]
  | condBr cond onTrue onFalse =>
    have hread (a b c : Json) : read
        (tagged "CondBr" (.obj [("cond", a), ("on_true", b), ("on_false", c)])) =
        (do return condBr (← Operand.read a) (← BlockId.read b) (← BlockId.read c)) := rfl
    simp [toJson, hread, hoperand, hblock]
  | debugLoc loc =>
    have hread (a : Json) : read (tagged "DebugLoc" (.obj [("loc", a)])) =
        (do return debugLoc (← Location.read a)) := rfl
    simp [toJson, hread, Location.lossless.read_write]
  | comment text =>
    have hread (a : Json) : read (tagged "Comment" (.obj [("text", a)])) =
        (do return comment (← readString a)) := rfl
    simp [toJson, hread, Lossless.str.read_write]

theorem lossless : Lossless toJson read where
  faithful := faithful_toJson
  ne_null k := by cases k <;> exact nofun
  read_write := read_toJson

end OpKind

theorem Op.lossless : Lossless toJson read where
  faithful o := faithful_record ["result", "ty", "kind"] rfl (by decide)
    (by simp [ValueId.lossless.faithful_ofOption, Ty.lossless.faithful, OpKind.lossless.faithful])
  ne_null _ := nofun
  read_write o := by
    have hread (a b c : Json) : read (.obj [("result", a), ("ty", b), ("kind", c)]) = (do
        return ⟨← readOption ValueId.read a, ← Ty.read b, ← OpKind.read c⟩) := rfl
    simp [toJson, hread, ValueId.lossless.readOption_ofOption, Ty.lossless.read_write,
      OpKind.lossless.read_write]

theorem Block.lossless : Lossless toJson read where
  faithful b := faithful_record ["id", "ops", "preds", "succs"] rfl (by decide)
    (by simp [BlockId.lossless.faithful, Op.lossless.list.faithful,
      BlockId.lossless.list.faithful])
  ne_null _ := nofun
  read_write b := by
    have hread (a b c d : Json) :
        read (.obj [("id", a), ("ops", b), ("preds", c), ("succs", d)]) = (do
          return ⟨← BlockId.read a, ← readList Op.read b, ← readList BlockId.read c,
            ← readList BlockId.read d⟩) := rfl
    simp [toJson, hread, BlockId.lossless.read_write, Op.lossless.list.read_write,
      BlockId.lossless.list.read_write]

namespace Function

theorem param_lossless : Lossless paramJson readParam where
  faithful p := faithful_record ["value", "ty"] rfl (by decide)
    (by simp [ValueId.lossless.faithful, Ty.lossless.faithful])
  ne_null _ := nofun
  read_write p := by
    have hread (a b : Json) : readParam (.obj [("value", a), ("ty", b)]) = (do
        return (← ValueId.read a, ← Ty.read b)) := rfl
    simp [paramJson, hread, ValueId.lossless.read_write, Ty.lossless.read_write]

theorem faithful_attrsJson (f : Function) : f.attrsJson.Faithful :=
  faithful_record ["inline", "external", "loc"] rfl (by decide)
    (by simp [Lossless.str.faithful, Lossless.bool.faithful, Location.lossless.faithful_ofOption])

theorem readAttrs_attrsJson (f : Function) :
    readAttrs f.attrsJson = some (f.hint, f.isExternal, f.location) := by
  have hread (a b c : Json) : readAttrs (.obj [("inline", a), ("external", b), ("loc", c)]) = (do
      return (← readName looseUnit InlineHint.names a, ← readBool b,
        ← readOption Location.read c)) := rfl
  simp [attrsJson, hread, (Lossless.name looseUnit InlineHint.names).read_write,
    Lossless.bool.read_write, Location.lossless.readOption_ofOption]

theorem lossless : Lossless toJson read where
  faithful f := faithful_record ["symbol", "params", "ret", "vararg", "attrs", "blocks"] rfl
    (by decide) (by simp [Lossless.str.faithful, param_lossless.list.faithful,
      Ty.lossless.faithful, Lossless.bool.faithful, faithful_attrsJson,
      Block.lossless.list.faithful])
  ne_null _ := nofun
  read_write f := by
    have hread (a b c d e g : Json) : read (.obj [("symbol", a), ("params", b), ("ret", c),
        ("vararg", d), ("attrs", e), ("blocks", g)]) = (do
          let attrs ← readAttrs e
          return ⟨← readString a, ← readList readParam b, ← Ty.read c, ← readBool d, attrs.1,
            attrs.2.1, attrs.2.2, ← readList Block.read g⟩) := rfl
    simp [toJson, hread, readAttrs_attrsJson, Lossless.str.read_write,
      param_lossless.list.read_write, Ty.lossless.read_write, Lossless.bool.read_write,
      Block.lossless.list.read_write]

end Function

theorem GlobalInit.lossless : Lossless toJson read where
  faithful i := by
    cases i with
    | int n => exact faithful_tagged "Int" (Lossless.int64.faithful n)
    | array ns => exact faithful_tagged "Array" (Lossless.int64.list.faithful ns)
    | global name => exact faithful_tagged "Global" (.str name)
    | func name => exact faithful_tagged "Func" (.str name)
    | undef => exact .str "Undef"
  ne_null i := by cases i <;> exact nofun
  read_write i := by
    cases i with
    | int n =>
      have hread (j : Json) : read (tagged "Int" j) = (do return int (← readInt64 j)) := rfl
      simp [toJson, hread, Lossless.int64.read_write]
    | array ns =>
      have hread (j : Json) : read (tagged "Array" j) = (do
          return array (← readList readInt64 j)) := rfl
      simp [toJson, hread, Lossless.int64.list.read_write]
    | _ => rfl

theorem Global.lossless : Lossless toJson read where
  faithful g := faithful_record ["symbol", "ty", "constant", "init", "linkage"] rfl (by decide)
    (by simp [Lossless.str.faithful, Ty.lossless.faithful, Lossless.bool.faithful,
      GlobalInit.lossless.faithful_ofOption])
  ne_null _ := nofun
  read_write g := by
    have hread (a b c d e : Json) : read (.obj [("symbol", a), ("ty", b), ("constant", c),
        ("init", d), ("linkage", e)]) = (do
          return ⟨← readString a, ← Ty.read b, ← readBool c, ← readOption GlobalInit.read d,
            ← readName looseUnit Linkage.names e⟩) := rfl
    simp [toJson, hread, Lossless.str.read_write, Ty.lossless.read_write,
      Lossless.bool.read_write, GlobalInit.lossless.readOption_ofOption,
      (Lossless.name looseUnit Linkage.names).read_write]

namespace Module

theorem faithful_of_mem_members (m : Module) : ∀ x ∈ m.members, x.2.Faithful := by
  simp [members, Lossless.str.faithful, Function.lossless.list.faithful,
    Global.lossless.list.faithful, Ty.lossless.table.faithful]

theorem lossless : Lossless toJson read where
  faithful m := faithful_record ["name", "functions", "globals", "type_defs"] rfl (by decide)
    m.faithful_of_mem_members
  ne_null _ := nofun
  read_write m := by
    have hread (a b c d : Json) : read (.obj [("name", a), ("functions", b), ("globals", c),
        ("type_defs", d)]) = (do
          return ⟨← readString a, ← readList Function.read b, ← readList Global.read c,
            ← NameTable.read Ty.read d⟩) := rfl
    simp [toJson, members, hread, Lossless.str.read_write, Function.lossless.list.read_write,
      Global.lossless.list.read_write, Ty.lossless.table.read_write]

end Module

end PassEngine.Dialect
