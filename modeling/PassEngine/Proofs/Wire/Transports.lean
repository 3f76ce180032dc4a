import PassEngine.Proofs.Wire.Decoding

namespace PassEngine.Wire

open receivedFrom (untilError)

def disconnects (n : Nat) : List Received :=
  List.replicate n (.error .disconnected)

namespace Channel

variable {σ : Type} (c : Channel σ)

def sendAll : List Envelope → σ → List (Except ProtocolError Unit) × σ
  | [], s => ([], s)
  | e :: es, s =>
    let (r, s) := c.send s e
    let (rs, s) := sendAll es s
    (r :: rs, s)

def receptions : Nat → σ → List Received
  | 0, _ => []
  | n + 1, s =>
    let (r, s) := c.receive s
    r :: receptions n s

/-- A state that holds some results gives them in order, and after them only that the peer is
gone. -/
theorem receptions_of_holds (Holds : σ → List Received → Prop)
    (hnil : ∀ s, Holds s [] → ∃ s', c.receive s = (.error .disconnected, s') ∧ Holds s' [])
    (hcons : ∀ s r rs, Holds s (r :: rs) → ∃ s', c.receive s = (r, s') ∧ Holds s' rs)
    (n : Nat) {s : σ} {rs : List Received} (h : Holds s rs) :
    c.receptions n s = (rs ++ disconnects n).take n := by
  unfold disconnects
  -- On the number of receptions: the state may run out of results before.
  induction n generalizing s rs with
  | zero => rfl
  | succ n ih =>
    cases rs with
    | nil =>
      obtain ⟨s', hreceive, hs'⟩ := hnil s h
      have htail := ih hs'
      rw [List.nil_append, List.take_replicate, Nat.min_self] at htail ⊢
      rw [receptions, hreceive, List.replicate_succ]
      exact congrArg _ htail
    | cons r rs =>
      obtain ⟨s', hreceive, hs'⟩ := hcons s r rs h
      have htail := ih hs'
      rw [receptions, hreceive, List.cons_append, List.take_succ_cons, List.replicate_succ',
        ← List.append_assoc, List.take_append_of_le_length (by simp)]
      exact congrArg _ htail

end Channel

theorem Stream.receptions_eq (n : Nat) (s : Stream) :
    Stream.channel.receptions n s = (s.incoming ++ disconnects n).take n := by
  apply Stream.channel.receptions_of_holds (fun s rs => s.incoming = rs) ?_ ?_ n rfl
  · intro s h
    exact ⟨s, by simp [channel, receive, h], h⟩
  · intro s r rs h
    exact ⟨{ s with incoming := rs }, by simp [channel, receive, h], rfl⟩

theorem Duplex.receptions_eq (n : Nat) {d : Duplex} (h : d.toFirst.senderGone = true) :
    Duplex.channel.receptions n d =
      (d.toFirst.frames.map Pipe.openBuffer ++ disconnects n).take n := by
  apply Duplex.channel.receptions_of_holds (fun d rs =>
    d.toFirst.senderGone = true ∧ d.toFirst.frames.map Pipe.openBuffer = rs) ?_ ?_ n ⟨h, rfl⟩
  · rintro d ⟨hgone, hframes⟩
    refine ⟨d, ?_, hgone, hframes⟩
    rw [List.map_eq_nil_iff] at hframes
    simp [channel, Pipe.receive, hgone, hframes]
  · rintro d r rs ⟨hgone, hheld⟩
    obtain ⟨bytes, rest, hframes, rfl, rfl⟩ := List.map_eq_cons_iff.1 hheld
    refine ⟨{ d with toFirst := { d.toFirst with frames := rest } }, ?_, hgone, rfl⟩
    simp [channel, Pipe.receive, hframes]

namespace Envelope

theorem encode_eq_ok_iff {e : Envelope} {bytes : Bytes} :
    e.encode = .ok bytes ↔ e.encodeBody.length ≤ maxFrameLength ∧ bytes = frame e.encodeBody := by
  unfold encode
  dsimp only
  split
  · next h => simp [Nat.not_le.2 h]
  · next h => simp [Nat.not_lt.1 h, eq_comm]

theorem mapM_encode_eq_ok_iff {es : List Envelope} {frames : List Bytes} :
    es.mapM encode = .ok frames ↔ (∀ e ∈ es, e.encodeBody.length ≤ maxFrameLength) ∧
      frames = es.map fun e => frame e.encodeBody := by
  have hframe : List.Forall₂ (fun e bytes => bytes = frame (encodeBody e)) es frames ↔
      frames = es.map fun e => frame e.encodeBody := by
    rw [← congrFun₂ List.forall₂_eq_eq_eq frames, List.forall₂_map_right_iff]
    exact ⟨List.Forall₂.flip, List.Forall₂.flip⟩
  simp only [mapM_eq_ok_iff, encode_eq_ok_iff]
  rw [List.forall₂_and_left, hframe]

theorem eq_of_decode_encodeBody {e e' : Envelope} (h : decode e.encodeBody = .ok e') : e' = e := by
  by_cases hdepth : e.toJson.depth ≤ Json.maxDepth
  · by_cases hversion : e.version = schemaVersion
    · rw [decode_encodeBody hversion hdepth] at h
      exact (Except.ok.inj h).symm
    · rw [decode_encodeBody_of_version_ne hversion hdepth] at h
      cases h
  · rw [decode_encodeBody_of_deep (Nat.not_le.1 hdepth)] at h
    cases h

end Envelope

theorem Duplex.sendAll_eq {es : List Envelope} {frames : List Bytes}
    (h : es.mapM Envelope.encode = .ok frames) {d : Duplex}
    (hthere : d.toSecond.receiverGone = false) :
    Duplex.channel.sendAll es d = (es.map fun _ => .ok (),
      { d with toSecond := { d.toSecond with frames := d.toSecond.frames ++ frames } }) := by
  rw [mapM_eq_ok_iff] at h
  induction h generalizing d with
  | nil => simp [Channel.sendAll]
  | @cons e bytes es frames he _ ih =>
    have hsend : Duplex.channel.send d e = (.ok (),
        { d with toSecond := { d.toSecond with frames := d.toSecond.frames ++ [bytes] } }) := by
      simp [channel, Pipe.send, he, Pipe.push, hthere]
    rw [Channel.sendAll, hsend]
    dsimp only
    rw [ih (by exact hthere)]
    simp

section Stream

variable {bodies : List Bytes} (hsize : ∀ b ∈ bodies, b.length ≤ maxFrameLength) {src : Source}
  (h : src.Delivers (bodies.map frame).flatten)

include hsize h

theorem readFrames_go_of_delivers {fuel : Nat} (hfuel : bodies.length < fuel) :
    readFrames.go fuel src = bodies.map .ok := by
  induction bodies generalizing src fuel with
  | nil =>
    cases fuel with
    | zero => simp at hfuel
    | succ fuel =>
      obtain ⟨src', hread, -⟩ := readFrame_of_firstFrame h .nothing
      rw [readFrames.go, hread, List.map_nil]
  | cons body bodies ih =>
    cases fuel with
    | zero => simp at hfuel
    | succ fuel =>
      rw [List.forall_mem_cons] at hsize
      rw [List.length_cons] at hfuel
      obtain ⟨src', hread, hsrc'⟩ := readFrame_of_firstFrame h (.whole hsize.1)
      have htail := ih hsize.2 hsrc' (by omega : bodies.length < fuel)
      rw [readFrames.go, hread, List.map_cons, ← htail]

/-- A frame has a header at least, so that the fuel suffices. -/
theorem readFrames_of_delivers : readFrames src = bodies.map .ok := by
  apply readFrames_go_of_delivers hsize h
  have hlength : bodies.length ≤ (bodies.map frame).flatten.length := by
    clear h hsize
    induction bodies with
    | nil => simp
    | cons body bodies ih =>
      rw [List.map_cons, List.flatten_cons, List.length_append, frame, List.length_append,
        length_header, List.length_cons]
      omega
  rw [h.bytes_eq]
  omega

theorem receivedFrom_of_delivers :
    receivedFrom src = untilError (bodies.map Envelope.decode) := by
  rw [receivedFrom, readFrames_of_delivers hsize h, List.map_map]
  rfl

end Stream

theorem untilError_map_ok (es : List Envelope) : untilError (es.map .ok) = es.map .ok := by
  induction es with
  | nil => rfl
  | cons e es ih => rw [List.map_cons, untilError, ih]

/-- What comes after the first error is of no account. -/
theorem untilError_take_append (rs more : List Received) (n : Nat) :
    untilError ((untilError rs ++ more).take n) = untilError ((rs ++ more).take n) := by
  induction rs generalizing n with
  | nil => rfl
  | cons r rs ih =>
    cases n with
    | zero => rfl
    | succ n =>
      cases r with
      | error e => rfl
      | ok e =>
        rw [untilError, List.cons_append, List.cons_append, List.take_succ_cons,
          List.take_succ_cons, untilError, untilError, ih]

theorem take_append_disconnects (rs : List Received) (n : Nat) :
    (rs ++ disconnects (rs.length + n)).take (rs.length + n) = rs ++ disconnects n := by
  unfold disconnects
  rw [List.take_length_add_append, List.take_replicate, Nat.min_eq_left (by omega)]

/-- The receiving end of a pair in memory, after the other end has sent these envelopes and gone
away. -/
def Duplex.leftWith (es : List Envelope) : Duplex :=
  (Duplex.channel.sendAll es {}).2.dropFirst.swap

section Sent

variable {es : List Envelope} {frames : List Bytes}
  (hframes : es.mapM Envelope.encode = .ok frames)

include hframes

theorem Duplex.receptions_leftWith (n : Nat) :
    Duplex.channel.receptions n (.leftWith es) =
      (es.map (fun e => Envelope.decode e.encodeBody) ++ disconnects n).take n := by
  have hsent := Duplex.sendAll_eq hframes (d := {}) rfl
  obtain ⟨hsize, rfl⟩ := Envelope.mapM_encode_eq_ok_iff.1 hframes
  have hopened : (es.map fun e => frame e.encodeBody).map Pipe.openBuffer =
      es.map fun e => Envelope.decode e.encodeBody := by
    rw [List.map_map]
    refine List.map_congr_left fun e he => ?_
    rw [Function.comp_apply, openBuffer_frame (hsize e he)]
  rw [leftWith, hsent, Duplex.receptions_eq n rfl, ← hopened]
  simp only [dropFirst, swap, List.nil_append]

theorem Stream.receptions_ofSource {src : Source} (hsrc : src.Delivers frames.flatten) (n : Nat) :
    Stream.channel.receptions n (.ofSource src) =
      (untilError (es.map fun e => Envelope.decode e.encodeBody) ++ disconnects n).take n := by
  obtain ⟨hsize, rfl⟩ := Envelope.mapM_encode_eq_ok_iff.1 hframes
  have hbodies : ∀ body ∈ es.map Envelope.encodeBody, body.length ≤ maxFrameLength :=
    List.forall_mem_map.2 hsize
  have hreceived := receivedFrom_of_delivers hbodies (by rwa [List.map_map])
  rw [List.map_map] at hreceived
  rw [Stream.receptions_eq, ofSource, hreceived, Function.comp_def]

end Sent

/-- Sent through memory or written to a stream, the same envelopes arrive: the receivers see the
same up to and with the first error, whatever the versions and depths of the envelopes and however
the stream is cut. If there is nothing that cannot be decoded, both see what was sent, in order and
each envelope once, and then that the peer is gone. -/
theorem transports_interchange {es : List Envelope} {frames : List Bytes}
    (hframes : es.mapM Envelope.encode = .ok frames) {src : Source}
    (hsrc : src.Delivers frames.flatten) :
    (Duplex.channel.sendAll es {}).1 = es.map (fun _ => .ok ()) ∧
    (∀ n, untilError (Duplex.channel.receptions n (.leftWith es)) =
      untilError (Stream.channel.receptions n (.ofSource src))) ∧
    ((∀ e ∈ es, ∃ e', Envelope.decode e.encodeBody = .ok e') → ∀ n,
      Duplex.channel.receptions (es.length + n) (.leftWith es) = es.map .ok ++ disconnects n ∧
      Stream.channel.receptions (es.length + n) (.ofSource src) =
        es.map .ok ++ disconnects n) := by
  refine ⟨?_, fun n => ?_, fun hdecode n => ?_⟩
  · rw [Duplex.sendAll_eq hframes rfl]
  · rw [Duplex.receptions_leftWith hframes, Stream.receptions_ofSource hframes hsrc,
      untilError_take_append]
  -- What can be decoded at all is what was sent.
  · have hdecoded : (es.map fun e => Envelope.decode e.encodeBody) = es.map .ok := by
      refine List.map_congr_left fun e he => ?_
      obtain ⟨e', he'⟩ := hdecode e he
      rw [he', Envelope.eq_of_decode_encodeBody he']
    have htake := take_append_disconnects (es.map .ok) n
    rw [List.length_map] at htake
    rw [Duplex.receptions_leftWith hframes, Stream.receptions_ofSource hframes hsrc, hdecoded,
      untilError_map_ok, htake]
    exact ⟨rfl, rfl⟩

def hailing (version : UInt32) : List Envelope :=
  [{ body := .hello "host" 1 }, { version, body := .goodbye }]

theorem transports_interchange_hailing : ∃ frames frames' : List Bytes,
    (hailing 7).mapM Envelope.encode = .ok frames ∧
    untilError (Stream.channel.receptions 3 (.ofSource (.ofChunks 3 frames.flatten))) =
      [.ok { body := .hello "host" 1 }, .error (.versionMismatch schemaVersion 7)] ∧
    (hailing schemaVersion).mapM Envelope.encode = .ok frames' ∧
    Stream.channel.receptions 3 (.ofSource (.ofChunks 3 frames'.flatten)) =
      [.ok { body := .hello "host" 1 }, .ok { body := .goodbye }, .error .disconnected] := by
  have hframes (version : UInt32)
      (hsize : ∀ e ∈ hailing version, 4 * (Json.compact e.toJson).length ≤ maxFrameLength) :
      (hailing version).mapM Envelope.encode =
        .ok ((hailing version).map fun e => frame e.encodeBody) := by
    refine Envelope.mapM_encode_eq_ok_iff.2 ⟨fun e he => ?_, rfl⟩
    exact Nat.le_trans e.length_encodeBody_le (hsize e he)
  have hforeign := hframes 7 (by decide +kernel)
  have hown := hframes schemaVersion (by decide +kernel)
  have hchunks (bytes : Bytes) := Source.delivers_ofChunks (by decide : 3 ≠ 0) bytes
  have hhello := Envelope.decode_encodeBody (e := { body := .hello "host" 1 }) rfl (by decide)
  have hgoodbye := Envelope.decode_encodeBody (e := { body := .goodbye }) rfl (by decide)
  have hother := Envelope.decode_encodeBody_of_version_ne (e := { version := 7, body := .goodbye })
    (by decide) (by decide)
  refine ⟨_, _, hforeign, ?_, hown, ?_⟩
  · rw [← (transports_interchange hforeign (hchunks _)).2.1, Duplex.receptions_leftWith hforeign,
      hailing, List.map_cons, List.map_singleton, hhello, hother]
    rfl
  · have hdecode : ∀ e ∈ hailing schemaVersion, ∃ e', Envelope.decode e.encodeBody = .ok e' := by
      rw [hailing, List.forall_mem_cons, List.forall_mem_singleton]
      exact ⟨⟨_, hhello⟩, ⟨_, hgoodbye⟩⟩
    apply ((transports_interchange hown (hchunks _)).2.2 hdecode 1).2

end PassEngine.Wire
