import PassEngine.Proofs.Dialect.Encoding
import PassEngine.Proofs.Except
import PassEngine.Proofs.Wire.Framing
import PassEngine.Wire.Channel

namespace PassEngine.Wire

open Json (Lossless faithful_record readString readUInt32 readList readName readOption looseUnit)

theorem point_lossless : Lossless (fun p : Point => .str p.name) readPoint :=
  .name looseUnit Point.names

theorem code_lossless :
    Lossless (fun c : ErrorCode => .str c.name) (readName looseUnit ErrorCode.names) :=
  .name looseUnit ErrorCode.names

theorem Payload.lossless : Lossless toJson read where
  faithful p := by
    cases p with
    | noChange =>
      exact faithful_record ["kind"] rfl (by decide) (by simp [Lossless.str.faithful])
    | module m =>
      exact faithful_record ["kind", "name", "functions", "globals", "type_defs"] rfl (by decide)
        (List.forall_mem_cons.2 ⟨.str "module", m.faithful_of_mem_members⟩)
    | error code message pass =>
      exact faithful_record ["kind", "code", "message", "pass"] rfl (by decide)
        (by simp [Lossless.str.faithful, Lossless.str.faithful_ofOption])
  ne_null p := by cases p <;> exact nofun
  read_write p := by
    cases p with
    | noChange => rfl
    | module m =>
      have hread (a b c d : Json) : read (.obj [("kind", .str "module"), ("name", a),
          ("functions", b), ("globals", c), ("type_defs", d)]) = (do
            return module (← Dialect.Module.read (.obj [("name", a), ("functions", b),
              ("globals", c), ("type_defs", d)]))) := rfl
      have hmodule := Dialect.Module.lossless.read_write m
      rw [Dialect.Module.toJson, Dialect.Module.members] at hmodule
      rw [toJson, Dialect.Module.members, hread, hmodule]
      rfl
    | error code message pass =>
      have hread (a b c : Json) : read (.obj [("kind", .str "error"), ("code", a), ("message", b),
          ("pass", c)]) = (do
            return error (← readName looseUnit ErrorCode.names a) (← readString b)
              (← readOption readString c)) := rfl
      simp [toJson, hread, code_lossless.read_write, Lossless.str.read_write,
        Lossless.str.readOption_ofOption]

theorem Message.lossless : Lossless toJson read where
  faithful m := by
    cases m with
    | hello client version =>
      exact faithful_record ["type", "client", "dialect_version"] rfl (by decide)
        (by simp [fields, Lossless.str.faithful, Lossless.uint32.faithful])
    | welcome server passes =>
      exact faithful_record ["type", "server", "passes"] rfl (by decide)
        (by simp [fields, Lossless.str.faithful, Lossless.str.list.faithful])
    | invoke point m =>
      exact faithful_record ["type", "inject_point", "module"] rfl (by decide)
        (by simp [fields, Lossless.str.faithful, Dialect.Module.lossless.faithful])
    | result point payload =>
      exact faithful_record ["type", "inject_point", "payload"] rfl (by decide)
        (by simp [fields, Lossless.str.faithful, Payload.lossless.faithful])
    | abort reason =>
      exact faithful_record ["type", "reason"] rfl (by decide)
        (by simp [fields, Lossless.str.faithful])
    | goodbye =>
      exact faithful_record ["type"] rfl (by decide) (by simp [fields, Lossless.str.faithful])
  ne_null _ := nofun
  read_write m := by
    cases m with
    | hello client version =>
      have hread (a b : Json) : read (.obj [("type", .str "hello"), ("client", a),
          ("dialect_version", b)]) = (do
            return hello (← readString a) (← readUInt32 b)) := rfl
      simp [toJson, kind, fields, hread, Lossless.str.read_write, Lossless.uint32.read_write]
    | welcome server passes =>
      have hread (a b : Json) : read (.obj [("type", .str "welcome"), ("server", a),
          ("passes", b)]) = (do
            return welcome (← readString a) (← readList readString b)) := rfl
      simp [toJson, kind, fields, hread, Lossless.str.read_write, Lossless.str.list.read_write]
    | invoke point m =>
      have hread (a b : Json) : read (.obj [("type", .str "invoke"), ("inject_point", a),
          ("module", b)]) = (do
            return invoke (← readPoint a) (← Dialect.Module.read b)) := rfl
      simp [toJson, kind, fields, hread, point_lossless.read_write,
        Dialect.Module.lossless.read_write]
    | result point payload =>
      have hread (a b : Json) : read (.obj [("type", .str "result"), ("inject_point", a),
          ("payload", b)]) = (do
            return result (← readPoint a) (← Payload.read b)) := rfl
      simp [toJson, kind, fields, hread, point_lossless.read_write, Payload.lossless.read_write]
    | abort reason =>
      have hread (a : Json) : read (.obj [("type", .str "abort"), ("reason", a)]) = (do
          return abort (← readString a)) := rfl
      simp [toJson, kind, fields, hread, Lossless.str.read_write]
    | goodbye => rfl

namespace Envelope

theorem lossless : Lossless toJson read where
  faithful e := faithful_record ["schema_version", "body"] rfl (by decide)
    (by simp [Lossless.uint32.faithful, Message.lossless.faithful])
  ne_null _ := nofun
  read_write e := by
    have hread (a b : Json) : read (.obj [("schema_version", a), ("body", b)]) = (do
        return ⟨← readUInt32 a, ← Message.read b⟩) := rfl
    simp [toJson, hread, Lossless.uint32.read_write, Message.lossless.read_write]

theorem claimedVersion_toJson (e : Envelope) : claimedVersion e.toJson = e.version := by
  have hversion (a b : Json) : Json.get? (.obj [("schema_version", a), ("body", b)])
      "schema_version" = some a := rfl
  rw [claimedVersion, toJson, hversion, Option.bind_some, Lossless.uint32.read_write,
    Option.getD_some]

end Envelope

theorem bytesText?_textBytes (s : String) : bytesText? (textBytes s) = some s := by
  have hvalid : (⟨(textBytes s).toArray⟩ : ByteArray).IsValidUTF8 := s.isValidUTF8
  rw [bytesText?, String.fromUTF8?, dif_pos hvalid]
  rfl

namespace Envelope

/-- An envelope fits if its body is not too long for a frame, nor nested too deeply to be read. -/
def Fits (e : Envelope) : Prop :=
  e.encodeBody.length ≤ maxFrameLength ∧ e.toJson.depth ≤ Json.maxDepth

theorem decode_encodeBody {e : Envelope} (hversion : e.version = schemaVersion)
    (hdepth : e.toJson.depth ≤ Json.maxDepth) : decode e.encodeBody = .ok e := by
  have hfaithful := lossless.faithful e
  have hread : (bytesText? e.encodeBody).bind Json.read = some e.toJson := by
    rw [encodeBody, bytesText?_textBytes, Option.bind_some, Json.read_toCompact hfaithful hdepth]
  rw [decode, hread]
  simp [hfaithful.isSound, hfaithful.lastWins, claimedVersion_toJson, hversion, lossless.read_write]

end Envelope

section Size

theorem size_utf8Encode_le (cs : List Char) : cs.utf8Encode.size ≤ 4 * cs.length := by
  induction cs with
  | nil => simp
  | cons c cs ih =>
    have hc := c.utf8Size_le_four
    rw [List.utf8Encode_cons, ByteArray.size_append, List.length_cons, List.utf8Encode_singleton]
    simp only [List.size_toByteArray, String.length_utf8EncodeChar]
    omega

/-- No character takes more than four bytes, so that it is enough to count characters. -/
theorem Envelope.length_encodeBody_le (e : Envelope) :
    e.encodeBody.length ≤ 4 * (Json.compact e.toJson).length := by
  rw [encodeBody, textBytes, Json.toCompact, Array.length_toList, String.toUTF8_eq_toByteArray,
    String.toByteArray_ofList]
  exact size_utf8Encode_le _

theorem Envelope.fits_of_length_le {e : Envelope}
    (hlength : 4 * (Json.compact e.toJson).length ≤ maxFrameLength)
    (hdepth : e.toJson.depth ≤ Json.maxDepth) : e.Fits :=
  ⟨Nat.le_trans e.length_encodeBody_le hlength, hdepth⟩

end Size

theorem openBuffer_frame {body : Bytes} (h : body.length ≤ maxFrameLength) :
    Pipe.openBuffer (frame body) = Envelope.decode body := by
  have hsource : (Source.ofBytes (frame body)).Delivers (frame body ++ []) := by
    rw [List.append_nil]
    exact Source.delivers_ofBytes _
  obtain ⟨rest, hframe, -⟩ := readFrame_of_firstFrame hsource (.whole h)
  rw [Pipe.openBuffer, hframe]

theorem Message.exists_encode {m : Message} (h : Envelope.Fits { body := m }) :
    ∃ bytes, m.encode = .ok bytes ∧ Pipe.openBuffer bytes = .ok { body := m } := by
  obtain ⟨hlength, hdepth⟩ := h
  refine ⟨frame (Envelope.encodeBody { body := m }), ?_, ?_⟩
  · rw [encode, Envelope.encode, if_neg (Nat.not_lt.2 hlength)]
  · rw [openBuffer_frame hlength, Envelope.decode_encodeBody rfl hdepth]

end PassEngine.Wire
