import PassEngine.Proofs.Wire.Codec

namespace PassEngine

namespace Json

end Json

namespace Wire.Envelope

section Steps

variable {body : Bytes} {j : Json} (hread : (bytesText? body).bind Json.read = some j)

include hread

theorem decode_of_unsound (hsound : j.isSound = false) :
    decode body = .error (.codec .grammar) := by
  rw [decode, hread]
  simp only [hsound]
  rfl

theorem decode_of_claimedVersion_ne (hsound : j.isSound = true)
    (hversion : claimedVersion j.lastWins ≠ schemaVersion) :
    decode body = .error (.versionMismatch schemaVersion (claimedVersion j.lastWins)) := by
  rw [decode, hread]
  simp only [hsound, if_pos hversion]
  rfl

end Steps

theorem read_encodeBody (e : Envelope) :
    (bytesText? e.encodeBody).bind Json.read = some (e.toJson.limit Json.maxDepth) := by
  rw [encodeBody, bytesText?_textBytes, Option.bind_some, Json.read,
    Json.parse_toCompact (lossless.faithful e), Option.map_some]

theorem decode_encodeBody_of_deep {e : Envelope} (h : Json.maxDepth < e.toJson.depth) :
    decode e.encodeBody = .error (.codec .grammar) := by
  apply decode_of_unsound e.read_encodeBody
  rw [Bool.eq_false_iff, Ne, Json.isSound_limit_iff (lossless.faithful e)]
  exact Nat.not_le.2 h

theorem decode_encodeBody_of_version_ne {e : Envelope} (hversion : e.version ≠ schemaVersion)
    (hdepth : e.toJson.depth ≤ Json.maxDepth) :
    decode e.encodeBody = .error (.versionMismatch schemaVersion e.version) := by
  have hfaithful := lossless.faithful e
  have hclaimed : claimedVersion e.toJson.lastWins = e.version := by
    rw [hfaithful.lastWins, claimedVersion_toJson]
  have hread := e.read_encodeBody
  rw [Json.limit_of_depth_le hfaithful hdepth] at hread
  rw [decode_of_claimedVersion_ne hread hfaithful.isSound (by rwa [hclaimed]), hclaimed]

end Wire.Envelope

end PassEngine
