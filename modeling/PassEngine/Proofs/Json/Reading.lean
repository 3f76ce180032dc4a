import PassEngine.Proofs.Json.Scanning

namespace PassEngine.Json

section Parsing

open Parsing (step)

/-- From a place for a value on, the tokens of a value are parsed as that value. -/
def ParsesAs (ts : List Token) (j : Json) : Prop :=
  ∀ outer, ts.foldlM step (.value outer) = some (.complete outer j)

/-- No value starts with the end of an array, so a first item is parsed like any other. -/
theorem foldlM_firstItem (j : Json) (js : List Json) (ts : List Token) (outer : List Enclosing) :
    (itemTokens (j :: js) ++ ts).foldlM step (.firstItem outer) =
      (itemTokens (j :: js) ++ ts).foldlM step (.value (.array [] :: outer)) := by
  cases js <;> cases j <;> rfl

theorem foldlM_items {j : Json} {js : List Json} (h : ∀ i ∈ j :: js, ParsesAs (tokens i) i)
    (done : List Json) (outer : List Enclosing) :
    (itemTokens (j :: js) ++ [Token.closeArray]).foldlM step (.value (.array done :: outer)) =
      some (.complete outer (.arr (done.reverse ++ j :: js))) := by
  induction js generalizing j done with
  | nil =>
    have hj := h j List.mem_cons_self (.array done :: outer)
    rw [itemTokens, foldlM_append_of_eq_some hj]
    simp [step]
  | cons j' js ih =>
    obtain ⟨hj, hjs⟩ := List.forall_mem_cons.1 h
    have hcomma : step (.complete (.array done :: outer) j) .comma =
        some (.value (.array (j :: done) :: outer)) := rfl
    rw [itemTokens, List.append_assoc, foldlM_append_of_eq_some (hj _), List.cons_append,
      foldlM_cons_of_eq_some hcomma, ih hjs (j :: done)]
    · simp
    · simp

theorem foldlM_firstKey (m : String × Json) (ms : List (String × Json)) (ts : List Token)
    (outer : List Enclosing) : (memberTokens (m :: ms) ++ ts).foldlM step (.firstKey outer) =
      (memberTokens (m :: ms) ++ ts).foldlM step (.key outer []) := by
  cases ms <;> rfl

theorem ofMembers_some (members : List (String × Json)) :
    ofMembers (members.map fun m => (some m.1, m.2)) = .obj members := by
  have hmembers : (members.map fun m => (some m.1, m.2)).mapM
      (fun m => m.1.map fun k => (k, m.2)) = some members := by
    induction members with
    | nil => rfl
    | cons m ms ih => simp [ih]
  rw [ofMembers, hmembers]

theorem foldlM_member {k : String} {j : Json} (h : ParsesAs (tokens j) j) (rest : List Token)
    (done : List (Option String × Json)) (outer : List Enclosing) :
    (Token.text (some k) :: Token.colon :: tokens j ++ rest).foldlM step (.key outer done) =
      rest.foldlM step (.complete (.object done (some k) :: outer) j) := by
  have hkey : step (.key outer done) (.text (some k)) =
      some (.colon (.object done (some k) :: outer)) := rfl
  have hcolon : step (.colon (.object done (some k) :: outer)) .colon =
      some (.value (.object done (some k) :: outer)) := rfl
  rw [List.cons_append, foldlM_cons_of_eq_some hkey, List.cons_append,
    foldlM_cons_of_eq_some hcolon, foldlM_append_of_eq_some (h _)]

theorem foldlM_members {m : String × Json} {ms : List (String × Json)}
    (h : ∀ i ∈ m :: ms, ParsesAs (tokens i.2) i.2) (done : List (Option String × Json))
    (outer : List Enclosing) :
    (memberTokens (m :: ms) ++ [Token.closeObject]).foldlM step (.key outer done) =
      some (.complete outer
        (ofMembers (done.reverse ++ (m :: ms).map fun i => (some i.1, i.2)))) := by
  induction ms generalizing m done with
  | nil =>
    obtain ⟨k, j⟩ := m
    rw [memberTokens, foldlM_member (h (k, j) List.mem_cons_self)]
    simp [step]
  | cons m' ms ih =>
    obtain ⟨k, j⟩ := m
    obtain ⟨hj, hms⟩ := List.forall_mem_cons.1 h
    have hcomma : step (.complete (.object done (some k) :: outer) j) .comma =
        some (.key outer ((some k, j) :: done)) := rfl
    rw [memberTokens, List.append_assoc, foldlM_member hj, List.cons_append,
      foldlM_cons_of_eq_some hcomma, ih hms]
    · simp
    · simp

theorem parsesAs_tokens {j : Json} (h : j.Faithful) : ParsesAs (tokens j) j := by
  induction h with
  | @arr items _ ih =>
    intro outer
    have hopen : step (.value outer) .openArray = some (.firstItem outer) := rfl
    rw [tokens, List.cons_append, foldlM_cons_of_eq_some hopen]
    cases items with
    | nil => rfl
    | cons j js =>
      rw [foldlM_firstItem, foldlM_items ih, List.reverse_nil, List.nil_append]
  | @obj members _ _ ih =>
    intro outer
    have hopen : step (.value outer) .openObject = some (.firstKey outer) := rfl
    rw [tokens, List.cons_append, foldlM_cons_of_eq_some hopen]
    cases members with
    | nil => rfl
    | cons m ms =>
      rw [foldlM_firstKey, foldlM_members ih, List.reverse_nil, List.nil_append, ofMembers_some]
  | _ => exact fun _ => rfl

end Parsing

/-- A text that has a value's tokens, whatever its layout, is parsed as that value. -/
theorem parse_of_readsAs {j : Json} (h : j.Faithful) {text : List Char}
    (htext : ReadsAs text (tokens j)) : parse (String.ofList text) = some j := by
  rw [parse, String.toList_ofList, htext.scan, Option.bind_eq_bind, Option.bind_some, ofTokens,
    parsesAs_tokens h]
  rfl

theorem parse_toCompact {j : Json} (h : j.Faithful) : parse j.toCompact = some j :=
  parse_of_readsAs h (readsAs_compact h)

theorem map_snd_eq_self {f : Json → Json} {members : List (String × Json)}
    (h : ∀ m ∈ members, f m.2 = m.2) : (members.map fun m => (m.1, f m.2)) = members := by
  rw [List.map_congr_left fun m hm => congrArg (Prod.mk m.1) (h m hm), List.map_id']

section Depth

theorem depthItems_le_iff {items : List Json} {n : Nat} :
    depthItems items ≤ n ↔ ∀ j ∈ items, j.depth ≤ n := by
  induction items with
  | nil => simp [depthItems]
  | cons j js ih => rw [depthItems, Nat.max_le, ih, List.forall_mem_cons]

theorem depthMembers_le_iff {members : List (String × Json)} {n : Nat} :
    depthMembers members ≤ n ↔ ∀ m ∈ members, m.2.depth ≤ n := by
  induction members with
  | nil => simp [depthMembers]
  | cons m ms ih => rw [depthMembers, Nat.max_le, ih, List.forall_mem_cons]

theorem limitItems_eq_map (n : Nat) (items : List Json) :
    limitItems n items = items.map (limit n) := by
  induction items with
  | nil => rfl
  | cons j js ih => simp [limitItems, ih]

theorem limitMembers_eq_map (n : Nat) (members : List (String × Json)) :
    limitMembers n members = members.map fun m => (m.1, limit n m.2) := by
  induction members with
  | nil => rfl
  | cons m ms ih => simp [limitMembers, ih]

theorem limit_of_depth_le {j : Json} (h : j.Faithful) {n : Nat} (hdepth : j.depth ≤ n) :
    limit n j = j := by
  induction h generalizing n with
  | @arr items _ ih =>
    rw [depth] at hdepth
    obtain _ | n := n
    · omega
    have hitems := depthItems_le_iff.1 (Nat.le_of_succ_le_succ hdepth)
    rw [limit, limitItems_eq_map, List.map_congr_left fun j hj => ih j hj (hitems j hj),
      List.map_id']
  | @obj members _ _ ih =>
    rw [depth] at hdepth
    obtain _ | n := n
    · omega
    have hmembers := depthMembers_le_iff.1 (Nat.le_of_succ_le_succ hdepth)
    rw [limit, limitMembers_eq_map, map_snd_eq_self fun m hm => ih m hm (hmembers m hm)]
  | _ => cases n <;> rfl

end Depth

theorem soundItems_iff {items : List Json} :
    soundItems items = true ↔ ∀ j ∈ items, j.isSound = true := by
  induction items with
  | nil => simp [soundItems]
  | cons j js ih => simp [soundItems, ih]

theorem soundMembers_iff {members : List (String × Json)} :
    soundMembers members = true ↔ ∀ m ∈ members, m.2.isSound = true := by
  induction members with
  | nil => simp [soundMembers]
  | cons m ms ih => simp [soundMembers, ih]

theorem Faithful.isSound {j : Json} (h : j.Faithful) : j.isSound = true := by
  induction h with
  | arr _ ih => exact soundItems_iff.2 ih
  | obj _ _ ih => exact soundMembers_iff.2 ih
  | _ => rfl

/-- The limit breaks just what is deeper. -/
theorem isSound_limit_iff {j : Json} (h : j.Faithful) {n : Nat} :
    (limit n j).isSound = true ↔ j.depth ≤ n := by
  induction h generalizing n with
  | @arr items _ ih =>
    cases n with
    | zero => simp [limit, isSound, depth]
    | succ n =>
      rw [limit, isSound, limitItems_eq_map, soundItems_iff, List.forall_mem_map, depth,
        Nat.succ_le_succ_iff, depthItems_le_iff]
      exact forall₂_congr fun j hj => ih j hj
  | @obj members _ _ ih =>
    cases n with
    | zero => simp [limit, isSound, depth]
    | succ n =>
      rw [limit, isSound, limitMembers_eq_map, soundMembers_iff, List.forall_mem_map, depth,
        Nat.succ_le_succ_iff, depthMembers_le_iff]
      exact forall₂_congr fun m hm => ih m hm
  | _ => cases n <;> simp [limit, isSound, depth]

theorem lastItems_eq_map (items : List Json) : lastItems items = items.map lastWins := by
  induction items with
  | nil => rfl
  | cons j js ih => simp [lastItems, ih]

/-- Where each key comes once, the last member of a key is its only one. -/
theorem lastMembers_of_nodup {members : List (String × Json)}
    (h : (members.map (·.1)).Nodup) :
    lastMembers members = members.map fun m => (m.1, m.2.lastWins) := by
  induction members with
  | nil => rfl
  | cons m ms ih =>
    obtain ⟨k, j⟩ := m
    obtain ⟨hk, hms⟩ := List.nodup_cons.1 h
    have hany : ¬ms.any (·.1 == k) = true := by
      rw [List.any_eq_true]
      rintro ⟨m', hm', heq⟩
      exact hk (List.mem_map.2 ⟨m', hm', eq_of_beq heq⟩)
    rw [lastMembers, if_neg hany, ih hms, List.map_cons]

theorem Faithful.lastWins {j : Json} (h : j.Faithful) : j.lastWins = j := by
  induction h with
  | @arr items _ ih =>
    rw [Json.lastWins, lastItems_eq_map, List.map_congr_left fun j hj => ih j hj, List.map_id']
  | @obj members hkeys _ ih =>
    rw [Json.lastWins, lastMembers_of_nodup hkeys, map_snd_eq_self ih]
  | _ => rfl

/-- Reading brings back what was written, up to the reader's depth. -/
theorem read_toCompact {j : Json} (h : j.Faithful) (hdepth : j.depth ≤ maxDepth) :
    read j.toCompact = some j := by
  rw [read, parse_toCompact h, Option.map_some, limit_of_depth_le h hdepth]

end PassEngine.Json
