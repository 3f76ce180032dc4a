import PassEngine.Wire.Frame

namespace PassEngine.Wire

namespace Source

/-- The reader hands out these bytes and then its stream ends. How the bytes are cut into pieces,
and how often a read is interrupted, is left open. -/
inductive Delivers : Source → Bytes → Prop
  | ended : Delivers [] []
  | interrupted {src : Source} {s : Bytes} (h : Delivers src s) : Delivers (.interrupted :: src) s
  | data (b : UInt8) (bs : Bytes) {src : Source} {s : Bytes} (h : Delivers src s) :
    Delivers (.data b bs :: src) (b :: bs ++ s)

variable {src : Source} {s : Bytes}

theorem delivers_ofBytes_append (bs : Bytes) (h : src.Delivers s) :
    Delivers (ofBytes bs ++ src) (bs ++ s) := by
  cases bs with
  | nil => exact h
  | cons b bs => exact h.data b bs

theorem delivers_ofBytes (bs : Bytes) : (ofBytes bs).Delivers bs := by
  have h := delivers_ofBytes_append bs .ended
  simpa only [List.append_nil] using h

theorem delivers_ofChunks {size : Nat} (hsize : size ≠ 0) (bs : Bytes) :
    (ofChunks size bs).Delivers bs := by
  have hgo (fuel : Nat) (bs : Bytes) (h : bs.length ≤ fuel) :
      (ofChunks.go size fuel bs).Delivers bs := by
    induction fuel generalizing bs with
    | zero =>
      have hnil : bs = [] := by simpa using h
      subst hnil
      exact .ended
    | succ fuel ih =>
      have htail := ih (bs.drop size) (by rw [List.length_drop]; omega)
      have hall := delivers_ofBytes_append (bs.take size) htail
      rwa [List.take_append_drop] at hall
  exact hgo bs.length bs (Nat.le_refl _)

theorem Delivers.bytes_eq (h : src.Delivers s) : src.bytes = s := by
  induction h with
  | ended => rfl
  | interrupted h ih => exact ih
  | data b bs h ih => rw [bytes, ih]

theorem Delivers.unique {s' : Bytes} (h : src.Delivers s) (h' : src.Delivers s') : s = s' :=
  h.bytes_eq.symm.trans h'.bytes_eq

/-- Reading takes what it wants off the front, and leaves a reader of the rest. -/
theorem Delivers.fill_of_le (h : src.Delivers s) {n : Nat} (hn : n ≤ s.length) :
    ∃ rest, src.fill n = .full (s.take n) rest ∧ rest.Delivers (s.drop n) := by
  induction h generalizing n with
  | ended =>
    have hzero : n = 0 := by simpa using hn
    subst hzero
    exact ⟨[], by simp [fill], .ended⟩
  | @interrupted src s h ih =>
    cases n with
    | zero => exact ⟨_, by simp [fill], h.interrupted⟩
    | succ n => exact ih hn
  | @data b bs src s h ih =>
    cases n with
    | zero => exact ⟨_, by simp [fill], h.data b bs⟩
    | succ n =>
      rw [List.length_append, List.length_cons] at hn
      by_cases hle : bs.length ≤ n
      · obtain ⟨rest, hfill, hrest⟩ := ih (n := n - bs.length) (by omega)
        refine ⟨rest, ?_, ?_⟩
        · rw [fill, if_pos hle, hfill, Filling.after, List.cons_append, List.cons_append,
            List.take_succ_cons, List.take_append, List.take_of_length_le hle]
        · rwa [List.cons_append, List.drop_succ_cons, List.drop_append, List.drop_of_length_le hle]
      · -- More has arrived than is wanted: the others stay in front.
        have hlt : n ≤ bs.length := by omega
        refine ⟨ofBytes (bs.drop n) ++ src, ?_, ?_⟩
        · rw [fill, if_neg hle, List.cons_append, List.take_succ_cons,
            List.take_append_of_le_length hlt]
        · rw [List.cons_append, List.drop_succ_cons, List.drop_append_of_le_length hlt]
          exact delivers_ofBytes_append _ h

theorem Delivers.fill_of_lt (h : src.Delivers s) {n : Nat} (hn : s.length < n) :
    src.fill n = .ended s.length := by
  induction h generalizing n with
  | ended =>
    cases n with
    | zero => omega
    | succ n => rfl
  | interrupted h ih =>
    cases n with
    | zero => omega
    | succ n => exact ih hn
  | @data b bs src s h ih =>
    cases n with
    | zero => omega
    | succ n =>
      rw [List.length_append, List.length_cons] at hn
      rw [fill, if_pos (by omega), ih (by omega), Filling.after, List.length_append]

end Source

section Header

theorem length_header (n : Nat) : (header n).length = 4 := rfl

theorem headerLength_header {n : Nat} (h : n < UInt32.size) : headerLength (header n) = n := by
  rw [UInt32.size] at h
  simp only [headerLength, header, List.foldl_cons, List.foldl_nil, UInt8.toNat_ofNat',
    Nat.shiftRight_eq_div_pow]
  omega

theorem exists_header {head : Bytes} (h : head.length = 4) :
    ∃ n, n < UInt32.size ∧ head = header n := by
  match head, h with
  | [a, b, c, d], _ =>
    have ha := a.toNat_lt
    have hb := b.toNat_lt
    have hc := c.toNat_lt
    have hd := d.toNat_lt
    refine ⟨headerLength [a, b, c, d], ?_, ?_⟩
    · simp only [headerLength, List.foldl_cons, List.foldl_nil, UInt32.size]
      omega
    · simp only [headerLength, header, List.foldl_cons, List.foldl_nil, List.cons.injEq, and_true,
        ← UInt8.toNat_inj, UInt8.toNat_ofNat', Nat.shiftRight_eq_div_pow]
      omega

end Header

/-- What stands at the front of some bytes: how reading a frame ends, and what it leaves. -/
inductive FirstFrame : Bytes → Except ProtocolError (Option Bytes) → Bytes → Prop
  | nothing : FirstFrame [] (.ok none) []
  | whole {body rest : Bytes} (h : body.length ≤ maxFrameLength) :
    FirstFrame (frame body ++ rest) (.ok (some body)) rest
  | oversized {len : Nat} {rest : Bytes} (h : maxFrameLength < len) (hlen : len < UInt32.size) :
    FirstFrame (header len ++ rest) (.error (.frameTooLarge len maxFrameLength)) rest
  | cutHeader {s : Bytes} (hs : s ≠ []) (h : s.length < 4) :
    FirstFrame s (.error (.io .unexpectedEnd)) []
  | cutBody {len : Nat} {part : Bytes} (hlen : len ≤ maxFrameLength) (h : part.length < len) :
    FirstFrame (header len ++ part) (.error (.io .unfilled)) []

theorem exists_firstFrame (s : Bytes) : ∃ outcome rest, FirstFrame s outcome rest := by
  by_cases hs : s = []
  · subst hs
    exact ⟨_, _, .nothing⟩
  by_cases hshort : s.length < 4
  · exact ⟨_, _, .cutHeader hs hshort⟩
  have hfour : (s.take 4).length = 4 := by rw [List.length_take]; omega
  obtain ⟨len, hlen, hhead⟩ := exists_header hfour
  rw [← List.take_append_drop 4 s, hhead]
  by_cases hlarge : maxFrameLength < len
  · exact ⟨_, _, .oversized hlarge hlen⟩
  by_cases hcut : (s.drop 4).length < len
  · exact ⟨_, _, .cutBody (by omega) hcut⟩
  · have hbody : ((s.drop 4).take len).length = len := by rw [List.length_take]; omega
    have hwhole : header len ++ s.drop 4 =
        frame ((s.drop 4).take len) ++ (s.drop 4).drop len := by
      rw [frame, hbody, List.append_assoc, List.take_append_drop]
    rw [hwhole]
    exact ⟨_, _, .whole (by omega)⟩

section Outcomes

variable {s rest : Bytes}

theorem exists_firstFrame_none_iff : (∃ rest, FirstFrame s (.ok none) rest) ↔ s = [] := by
  constructor
  · rintro ⟨rest, ⟨⟩⟩
    rfl
  · rintro rfl
    exact ⟨_, .nothing⟩

theorem firstFrame_some_iff {body : Bytes} : FirstFrame s (.ok (some body)) rest ↔
    body.length ≤ maxFrameLength ∧ s = frame body ++ rest := by
  constructor
  · intro h
    cases h with
    | whole h => exact ⟨h, rfl⟩
  · rintro ⟨h, rfl⟩
    exact .whole h

theorem firstFrame_tooLarge_iff {len : Nat} :
    FirstFrame s (.error (.frameTooLarge len maxFrameLength)) rest ↔
      maxFrameLength < len ∧ len < UInt32.size ∧ s = header len ++ rest := by
  constructor
  · intro h
    cases h with
    | oversized h hlen => exact ⟨h, hlen, rfl⟩
  · rintro ⟨h, hlen, rfl⟩
    exact .oversized h hlen

theorem exists_firstFrame_unexpectedEnd_iff :
    (∃ rest, FirstFrame s (.error (.io .unexpectedEnd)) rest) ↔ s ≠ [] ∧ s.length < 4 := by
  constructor
  · rintro ⟨rest, h⟩
    cases h with
    | cutHeader hs h => exact ⟨hs, h⟩
  · rintro ⟨hs, h⟩
    exact ⟨_, .cutHeader hs h⟩

theorem exists_firstFrame_unfilled_iff :
    (∃ rest, FirstFrame s (.error (.io .unfilled)) rest) ↔
      ∃ len part, len ≤ maxFrameLength ∧ part.length < len ∧ s = header len ++ part := by
  constructor
  · rintro ⟨rest, h⟩
    cases h with
    | cutBody hlen h => exact ⟨_, _, hlen, h, rfl⟩
  · rintro ⟨len, part, hlen, h, rfl⟩
    exact ⟨_, .cutBody hlen h⟩

end Outcomes

section Reading

variable {src : Source} {s : Bytes}

theorem fill_header {len : Nat} (h : src.Delivers (header len ++ s)) :
    ∃ rest, src.fill 4 = .full (header len) rest ∧ rest.Delivers s :=
  h.fill_of_le (n := 4) (by simp [length_header])

/-- A frame is read off the front, and a reader of what comes after it is left. -/
theorem readFrame_of_firstFrame (h : src.Delivers s) {outcome : Except ProtocolError (Option Bytes)}
    {rest : Bytes} (hfirst : FirstFrame s outcome rest) :
    ∃ src', readFrame src = (outcome, src') ∧ src'.Delivers rest := by
  -- A length within the limit is not cut by the four bytes of its header.
  have hmax : maxFrameLength < UInt32.size := by decide
  unfold readFrame
  cases hfirst with
  | nothing =>
    rw [h.fill_of_lt (n := 4) (by decide)]
    exact ⟨[], rfl, .ended⟩
  | @whole body rest hbody =>
    rw [frame, List.append_assoc] at h
    obtain ⟨src', hhead, hsrc'⟩ := fill_header h
    obtain ⟨src'', hfill, hsrc''⟩ := hsrc'.fill_of_le (n := body.length) (by simp)
    rw [List.take_left] at hfill
    rw [List.drop_left] at hsrc''
    simp only [hhead, headerLength_header (by omega : body.length < UInt32.size),
      if_neg (by omega : ¬maxFrameLength < body.length), hfill]
    exact ⟨src'', rfl, hsrc''⟩
  | @oversized len rest hlarge hlen =>
    obtain ⟨src', hhead, hsrc'⟩ := fill_header h
    simp only [hhead, headerLength_header hlen, if_pos hlarge]
    exact ⟨src', rfl, hsrc'⟩
  | cutHeader hs hshort =>
    rw [h.fill_of_lt hshort]
    cases s with
    | nil => exact absurd rfl hs
    | cons b bs => exact ⟨[], rfl, .ended⟩
  | @cutBody len part hlen hcut =>
    obtain ⟨src', hhead, hsrc'⟩ := fill_header h
    simp only [hhead, headerLength_header (by omega : len < UInt32.size),
      if_neg (by omega : ¬maxFrameLength < len), hsrc'.fill_of_lt hcut]
    exact ⟨[], rfl, .ended⟩

/-- What is read depends on the bytes alone. -/
theorem readFrame_iff_firstFrame (h : src.Delivers s)
    {outcome : Except ProtocolError (Option Bytes)} {rest : Bytes} :
    (readFrame src).1 = outcome ∧ (readFrame src).2.Delivers rest ↔
      FirstFrame s outcome rest := by
  constructor
  · rintro ⟨houtcome, hrest⟩
    obtain ⟨outcome', rest', hfirst⟩ := exists_firstFrame s
    obtain ⟨src', hread, hsrc'⟩ := readFrame_of_firstFrame h hfirst
    rw [hread] at houtcome hrest
    rwa [← houtcome, hrest.unique hsrc']
  · intro hfirst
    obtain ⟨src', hread, hsrc'⟩ := readFrame_of_firstFrame h hfirst
    rw [hread]
    exact ⟨rfl, hsrc'⟩

theorem readFrame_eq_iff (h : src.Delivers s) {outcome : Except ProtocolError (Option Bytes)} :
    (readFrame src).1 = outcome ↔ ∃ rest, FirstFrame s outcome rest := by
  simp only [← readFrame_iff_firstFrame h, exists_and_left]
  obtain ⟨outcome', rest, hfirst⟩ := exists_firstFrame s
  exact (and_iff_left ⟨rest, ((readFrame_iff_firstFrame h).2 hfirst).2⟩).symm

/-- An I/O error is what is left when neither an end nor a header settles the matter. -/
theorem readFrame_io_iff (h : src.Delivers s) :
    (∃ fault, (readFrame src).1 = .error (.io fault)) ↔
      s ≠ [] ∧ (∀ body rest, body.length ≤ maxFrameLength → s ≠ frame body ++ rest) ∧
        ∀ len rest, maxFrameLength < len → len < UInt32.size → s ≠ header len ++ rest := by
  have houtcome {outcome : Except ProtocolError (Option Bytes)} {rest : Bytes}
      (hfirst : FirstFrame s outcome rest) : (readFrame src).1 = outcome :=
    (readFrame_eq_iff h).2 ⟨rest, hfirst⟩
  constructor
  · rintro ⟨fault, hfault⟩
    rw [hfault] at houtcome
    refine ⟨?_, fun body rest hbody => ?_, fun len rest hlarge hlen => ?_⟩
    · rintro rfl
      exact nomatch houtcome .nothing
    · rintro rfl
      exact nomatch houtcome (.whole hbody)
    · rintro rfl
      exact nomatch houtcome (.oversized hlarge hlen)
  · rintro ⟨hs, hwhole, hlarge⟩
    -- Some description of the front applies; all but the two cut ones are ruled out.
    obtain ⟨outcome, rest, hfirst⟩ := exists_firstFrame s
    rw [houtcome hfirst]
    cases hfirst with
    | nothing => exact absurd rfl hs
    | whole hbody => exact absurd rfl (hwhole _ _ hbody)
    | oversized hlen hlen' => exact absurd rfl (hlarge _ _ hlen hlen')
    | cutHeader => exact ⟨_, rfl⟩
    | cutBody => exact ⟨_, rfl⟩

/-- Framing is exact, however the stream is cut. A reader at its end gives no frame; a whole frame
gives its body and leaves what follows; a length beyond the limit is refused when only the header is
gone; and a stream that ends too soon, in the header or in the body, is an error and never a part of
a body. -/
theorem readFrame_exact (h : src.Delivers s) :
    ((readFrame src).1 = .ok none ↔ s = []) ∧
    (∀ body rest, (readFrame src).1 = .ok (some body) ∧ (readFrame src).2.Delivers rest ↔
      body.length ≤ maxFrameLength ∧ s = frame body ++ rest) ∧
    (∀ len rest, (readFrame src).1 = .error (.frameTooLarge len maxFrameLength) ∧
        (readFrame src).2.Delivers rest ↔
      maxFrameLength < len ∧ len < UInt32.size ∧ s = header len ++ rest) ∧
    ((∃ fault, (readFrame src).1 = .error (.io fault)) ↔
      s ≠ [] ∧ (∀ body rest, body.length ≤ maxFrameLength → s ≠ frame body ++ rest) ∧
        ∀ len rest, maxFrameLength < len → len < UInt32.size → s ≠ header len ++ rest) ∧
    ((readFrame src).1 = .error (.io .unexpectedEnd) ↔ s ≠ [] ∧ s.length < 4) ∧
    ((readFrame src).1 = .error (.io .unfilled) ↔
      ∃ len part, len ≤ maxFrameLength ∧ part.length < len ∧ s = header len ++ part) := by
  refine ⟨?_, fun body rest => ?_, fun len rest => ?_, readFrame_io_iff h, ?_, ?_⟩
  · rw [readFrame_eq_iff h, exists_firstFrame_none_iff]
  · rw [readFrame_iff_firstFrame h, firstFrame_some_iff]
  · rw [readFrame_iff_firstFrame h, firstFrame_tooLarge_iff]
  · rw [readFrame_eq_iff h, exists_firstFrame_unexpectedEnd_iff]
  · rw [readFrame_eq_iff h, exists_firstFrame_unfilled_iff]

/-- Two frames, of which the first one has two bytes in its body and the second one is cut off. -/
def choppy : Source :=
  [.interrupted, .data 0 [0], .interrupted, .interrupted, .data 0 [2, 104], .data 105 [0, 0],
    .data 0 [], .interrupted]

theorem readFrame_exact_choppy : choppy.Delivers [0, 0, 0, 2, 104, 105, 0, 0, 0] ∧
    (readFrame choppy).1 = .ok (some [104, 105]) ∧ (readFrame choppy).2.Delivers [0, 0, 0] := by
  have h : choppy.Delivers [0, 0, 0, 2, 104, 105, 0, 0, 0] :=
    .interrupted <| .data 0 [0] <| .interrupted <| .interrupted <| .data 0 [2, 104] <|
      .data 105 [0, 0] <| .data 0 [] <| .interrupted .ended
  exact ⟨h, ((readFrame_exact h).2.1 [104, 105] [0, 0, 0]).2 (by decide)⟩

end Reading

end PassEngine.Wire
