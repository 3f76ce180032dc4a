import PassEngine.Proofs.Native.Encoding
import PassEngine.Proofs.Native.Loading
import PassEngine.Proofs.Wire.Decoding

namespace PassEngine.Wire.Envelope

def asking (point : Point) (d : Dialect.Module) : Envelope :=
  { body := .invoke point d }

theorem depth_asking (point : Point) (d : Dialect.Module) :
    (asking point d).toJson.depth = d.toJson.depth + 2 := by
  simp [asking, toJson, Message.toJson, Message.fields, Json.depth, Json.depthMembers,
    Json.ofUInt32]

section Lower

variable {m : Native.Module} {d : Dialect.Module} (hlower : m.lower = .ok d) (point : Point)

include hlower

theorem depth_asking_le_iff : (asking point d).toJson.depth ≤ Json.maxDepth ↔
    ∀ x ∈ m.placedTypes, Native.Within Json.maxDepth x := by
  rw [depth_asking]
  exact Native.Module.within_iff_of_lower (by decide) hlower

theorem decode_asking_of_within (h : ∀ x ∈ m.placedTypes, Native.Within Json.maxDepth x) :
    decode (asking point d).encodeBody = .ok (asking point d) :=
  decode_encodeBody rfl ((depth_asking_le_iff hlower point).2 h)

theorem decode_asking_of_not_within (h : ¬∀ x ∈ m.placedTypes, Native.Within Json.maxDepth x) :
    decode (asking point d).encodeBody = .error (.codec .grammar) := by
  apply decode_encodeBody_of_deep
  rw [← depth_asking_le_iff hlower point] at h
  exact Nat.lt_of_not_le h

end Lower

/-- A module that was loaded and put in the dialect is sent, if the question about it is not too
long, and the question can be read just if there is room for every type where it stands in it. So it
can if the text of the module leaves five levels. -/
theorem decode_invoke_of_load {text : String} {m : Native.Module} {d : Dialect.Module}
    (point : Point) (hload : Native.Module.load text = some m) (hlower : m.lower = .ok d)
    (hsize : (asking point d).encodeBody.length ≤ maxFrameLength) :
    (asking point d).encode = .ok (frame (asking point d).encodeBody) ∧
    ((∀ x ∈ m.placedTypes, Native.Within Json.maxDepth x) →
      decode (asking point d).encodeBody = .ok (asking point d)) ∧
    ((∃ x ∈ m.placedTypes, ¬Native.Within Json.maxDepth x) →
      decode (asking point d).encodeBody = .error (.codec .grammar)) ∧
    ∀ j, Json.parse text = some j → j.depth + 5 ≤ Json.maxDepth →
      decode (asking point d).encodeBody = .ok (asking point d) := by
  refine ⟨?_, decode_asking_of_within hlower point, fun h => ?_, fun j hj hdepth => ?_⟩
  · rw [encode, if_neg (Nat.not_lt.2 hsize)]
  · exact decode_asking_of_not_within hlower point (by simpa using h)
  · refine decode_asking_of_within hlower point fun x hx => ?_
    exact (Native.Module.within_of_load hload hj x hx).mono hdepth

section Allocating

def pointersToInt : Nat → Native.Ty
  | 0 => .i32
  | n + 1 => .ptr (pointersToInt n)

def allocating (levels : Nat) : Native.Module where
  name := "deep"
  functions := [{
    name := "main"
    returnType := .void
    blocks := [{
      id := ⟨0⟩
      instructions := [.alloca ⟨0⟩ (pointersToInt levels) none (.ptr .void), .ret none] }] }]

def allocated (levels : Nat) : Dialect.Module where
  name := "deep"
  functions := [{
    symbol := "main"
    params := []
    ret := .void
    isVararg := false
    hint := .none
    isExternal := false
    location := none
    blocks := [{
      id := ⟨0⟩
      ops := [⟨some ⟨0⟩, .ptr .void, .alloca (pointersToInt levels).lower none⟩, .void (.ret none)]
      preds := []
      succs := [] }] }]

variable (levels : Nat)

theorem lower_allocating : (allocating levels).lower = .ok (allocated levels) := rfl

theorem toJson_allocating : (allocating levels).toJson =
    .obj [("name", .str "deep"), ("functions", .arr [
      .obj [("name", .str "main"), ("return_type", .str "Void"), ("parameters", .arr []),
        ("blocks", .arr [.obj [("id", .int 0), ("instructions", .arr [
          .tagged "Alloca" (.obj [("result", .int 0),
            ("alloc_type", (pointersToInt levels).toJson), ("count", .null),
            ("result_type", .tagged "Ptr" (.str "Void"))]), .tagged "Return" .null]),
          ("predecessors", .arr []), ("successors", .arr [])]]),
        ("is_external", .bool false), ("is_vararg", .bool false), ("inline_hint", .str "None"),
        ("source_location", .null)]]), ("globals", .arr []), ("type_definitions", .obj [])] := rfl

theorem toJson_asking_allocated : (asking .beforeIpa (allocated levels)).toJson =
    .obj [("schema_version", .ofUInt32 schemaVersion), ("body", .obj [
      ("type", .str "invoke"), ("inject_point", .str "before-ipa"), ("module", .obj [
        ("name", .str "deep"), ("functions", .arr [
          .obj [("symbol", .str "main"), ("params", .arr []), ("ret", .str "Void"),
            ("vararg", .bool false), ("attrs", .obj [("inline", .str "None"),
              ("external", .bool false), ("loc", .null)]),
            ("blocks", .arr [.obj [("id", .int 0), ("ops", .arr [
              .obj [("result", .int 0), ("ty", .tagged "Ptr" (.str "Void")),
                ("kind", .tagged "Alloca" (.obj [
                  ("alloc_ty", (pointersToInt levels).lower.toJson), ("count", .null)]))],
              .obj [("result", .null), ("ty", .str "Void"),
                ("kind", .tagged "Ret" (.obj [("value", .null)]))]]),
              ("preds", .arr []), ("succs", .arr [])]])]]),
        ("globals", .arr []), ("type_defs", .obj [])])])] := rfl

theorem depth_allocating : (allocating levels).toJson.depth = max levels 1 + 8 := by
  have hpointers : (pointersToInt levels).toJson.depth = levels := by
    induction levels with
    | zero => rfl
    | succ n ih => rw [pointersToInt, Native.Ty.toJson, Json.depth_tagged, ih]
  rw [toJson_allocating]
  simp [Json.depth, Json.depthMembers, Json.depthItems, hpointers]

theorem within_pointersToInt_iff {k n : Nat} :
    Native.Within n (k, pointersToInt levels) ↔ levels + 2 + k ≤ n := by
  have hpointers : (pointersToInt levels).lower.toJson.depth = levels + 2 := by
    induction levels with
    | zero => rfl
    | succ n ih => rw [pointersToInt, Native.Ty.lower, Dialect.Ty.toJson, Json.depth_tagged, ih]
  rw [Native.Within, hpointers]

theorem mem_placedTypes_allocating :
    (11, pointersToInt levels) ∈ (allocating levels).placedTypes := by
  simp [allocating, Native.Module.placedTypes, Native.Instruction.placedTypes,
    Native.Instruction.ty?, Native.Instruction.allocated?]

theorem length_compact_asking_allocated :
    (Json.compact (asking .beforeIpa (allocated levels)).toJson).length =
      (Json.compact (asking .beforeIpa (allocated 0)).toJson).length + 8 * levels := by
  have hpointers (n : Nat) : (Json.compact (pointersToInt n).lower.toJson).length =
      (Json.compact Native.Ty.i32.lower.toJson).length + 8 * n := by
    induction n with
    | zero => rfl
    | succ n ih =>
      have hkey : (Json.quote "Ptr").length = 5 := rfl
      simp only [pointersToInt, Native.Ty.lower, Dialect.Ty.toJson, Json.tagged, Json.compact,
        Json.compactMembers, List.length_append, List.length_cons, List.length_nil, hkey] at ih ⊢
      omega
  simp only [toJson_asking_allocated, Json.tagged, Json.compact, Json.compactMembers,
    Json.compactItems, Json.ofUInt32, List.length_append, List.length_cons, hpointers]
  omega

variable {levels} (h : max levels 1 + 8 ≤ Json.maxDepth)

include h

theorem load_allocating :
    Native.Module.load (allocating levels).toJson.toCompact = some (allocating levels) := by
  apply Native.Module.load_toCompact
  rwa [depth_allocating]

theorem length_asking_allocated_le :
    (asking .beforeIpa (allocated levels)).encodeBody.length ≤ maxFrameLength := by
  have hbase : (Json.compact (asking .beforeIpa (allocated 0)).toJson).length ≤ 512 := by
    decide +kernel
  have hlength := length_encodeBody_le (asking .beforeIpa (allocated levels))
  rw [length_compact_asking_allocated] at hlength
  have hmax : maxFrameLength = 67108864 := rfl
  have hdepth : Json.maxDepth = 127 := rfl
  omega

end Allocating

theorem decode_invoke_of_load_allocating :
    Native.Module.load (allocating 114).toJson.toCompact = some (allocating 114) ∧
    (allocating 114).toJson.depth = 122 ∧
    decode (asking .beforeIpa (allocated 114)).encodeBody =
      .ok (asking .beforeIpa (allocated 114)) := by
  have hload : Native.Module.load (allocating 114).toJson.toCompact = some (allocating 114) :=
    load_allocating (by decide)
  have hparse := Json.parse_toCompact (Native.Module.lossless.faithful (allocating 114))
  have hdepth : (allocating 114).toJson.depth = 122 := depth_allocating 114
  obtain ⟨-, -, -, hdecode⟩ := decode_invoke_of_load .beforeIpa hload (lower_allocating 114)
    (length_asking_allocated_le (by decide))
  exact ⟨hload, hdepth, hdecode _ hparse (Nat.le_of_eq (congrArg (· + 5) hdepth))⟩

/-- One level more, and what the host has loaded is lost on the way to the server. -/
theorem decode_invoke_of_load_too_deep :
    Native.Module.load (allocating 115).toJson.toCompact = some (allocating 115) ∧
    (allocating 115).lower = .ok (allocated 115) ∧
    (asking .beforeIpa (allocated 115)).encodeBody.length ≤ maxFrameLength ∧
    (allocating 115).toJson.depth = 123 ∧
    decode (asking .beforeIpa (allocated 115)).encodeBody = .error (.codec .grammar) := by
  refine ⟨load_allocating (by decide), lower_allocating 115,
    length_asking_allocated_le (by decide), depth_allocating 115, ?_⟩
  refine decode_asking_of_not_within (lower_allocating 115) .beforeIpa fun hwithin => ?_
  have hroom := (within_pointersToInt_iff 115).1 (hwithin _ (mem_placedTypes_allocating 115))
  exact absurd hroom (by decide)

end PassEngine.Wire.Envelope
