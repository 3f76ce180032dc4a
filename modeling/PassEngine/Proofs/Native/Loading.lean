import PassEngine.Native.Snapshot
import PassEngine.Proofs.Bridge.Nesting
import PassEngine.Proofs.NameTable

namespace PassEngine

namespace Json

variable {α : Type} {j x : Json} {read : Json → Option α} {a : α}

theorem depth_lt_of_mem_items {items : List Json} (h : x ∈ items) : x.depth < (arr items).depth :=
  Nat.lt_succ_of_le (depthItems_le_iff.1 (Nat.le_refl _) x h)

theorem depth_lt_of_mem_members {members : List (String × Json)} {m : String × Json}
    (h : m ∈ members) : m.2.depth < (obj members).depth :=
  Nat.lt_succ_of_le (depthMembers_le_iff.1 (Nat.le_refl _) m h)

theorem depth_lt_of_variant {tag : String} {body : Json} (h : variant j = some (tag, some body)) :
    body.depth < j.depth := by
  unfold variant at h
  split at h
  · simp at h
  · cases h
    exact depth_lt_of_mem_members (m := (tag, body)) List.mem_cons_self
  · cases h

theorem exists_of_mem_mapM {β : Type} {f : β → Option α} {bs : List β} {as : List α}
    (h : bs.mapM f = some as) (ha : a ∈ as) : ∃ b ∈ bs, f b = some a := by
  induction bs generalizing as with
  | nil =>
    cases h
    cases ha
  | cons b bs ih =>
    rw [List.mapM_cons] at h
    obtain ⟨a', ha', h⟩ := Option.bind_eq_some_iff.1 h
    obtain ⟨as', has', h⟩ := Option.bind_eq_some_iff.1 h
    cases h
    rcases List.mem_cons.1 ha with rfl | ha
    · exact ⟨b, List.mem_cons_self, ha'⟩
    · obtain ⟨b', hb', hfb'⟩ := ih has' ha
      exact ⟨b', List.mem_cons_of_mem b hb', hfb'⟩

theorem depth_lt_of_slots {names : List String} {ss : List Slot} (h : slots names j = some ss)
    (hx : .given x ∈ ss) : x.depth < j.depth := by
  unfold slots at h
  split at h
  · obtain ⟨name, -, hslot⟩ := exists_of_mem_mapM h hx
    split at hslot
    · cases hslot
    · next key y hfilter =>
      cases hslot
      have hmem : (key, x) ∈ List.filter (·.1 == name) _ := hfilter ▸ List.mem_cons_self
      exact depth_lt_of_mem_members (List.mem_of_mem_filter hmem)
    · cases hslot
  · split at h
    · cases h
      rcases List.mem_append.1 hx with hx | hx
      · obtain ⟨y, hy, heq⟩ := List.mem_map.1 hx
        cases heq
        exact depth_lt_of_mem_items hy
      · cases List.eq_of_mem_replicate hx
    · cases h
  · cases h

theorem exists_of_slots {names : List String} {ss : List Slot} {s : Slot}
    (h : slots names j = some ss) (hs : s ∈ ss) (ha : s.required read = some a) :
    ∃ x, x.depth < j.depth ∧ read x = some a := by
  cases s with
  | given x => exact ⟨x, depth_lt_of_slots h hs, ha⟩
  | _ => cases ha

theorem exists_of_readList {as : List α} (h : readList read j = some as) (ha : a ∈ as) :
    ∃ x, x.depth < j.depth ∧ read x = some a := by
  unfold readList at h
  split at h
  · obtain ⟨x, hx, hread⟩ := exists_of_mem_mapM h ha
    exact ⟨x, depth_lt_of_mem_items hx, hread⟩
  · cases h

theorem exists_of_slots_list {names : List String} {ss : List Slot} {s : Slot} {as : List α}
    (h : slots names j = some ss) (hs : s ∈ ss) (has : s.required (readList read) = some as)
    (ha : a ∈ as) : ∃ x, x.depth + 2 ≤ j.depth ∧ read x = some a := by
  obtain ⟨y, hy, hlist⟩ := exists_of_slots h hs has
  obtain ⟨x, hx, hread⟩ := exists_of_readList hlist ha
  exact ⟨x, by omega, hread⟩

theorem exists_of_readPair {β : Type} {readFirst : Json → Option β} {p : β × α}
    (h : readPair readFirst read j = some p) : ∃ x, x.depth < j.depth ∧ read x = some p.2 := by
  unfold readPair at h
  split at h
  · obtain ⟨b, -, h⟩ := Option.bind_eq_some_iff.1 h
    obtain ⟨a, ha, h⟩ := Option.bind_eq_some_iff.1 h
    cases h
    exact ⟨_, depth_lt_of_mem_items (by simp), ha⟩
  · cases h

theorem exists_of_readTable {t : NameTable α} {e : String × α} (h : NameTable.read read j = some t)
    (he : e ∈ t.entries) : ∃ x, x.depth < j.depth ∧ read x = some e.2 := by
  unfold NameTable.read at h
  split at h
  · obtain ⟨es, hes, rfl⟩ := Option.map_eq_some_iff.1 h
    rcases NameTable.mem_of_mem_foldl_insert he with he | he
    · cases he
    · obtain ⟨m, hm, hread⟩ := exists_of_mem_mapM hes he
      obtain ⟨a, ha, rfl⟩ := Option.map_eq_some_iff.1 hread
      exact ⟨m.2, depth_lt_of_mem_members hm, ha⟩
  · cases h

theorem depth_limit_le (n : Nat) (j : Json) : (limit n j).depth ≤ j.depth := by
  induction n generalizing j with
  | zero => cases j <;> simp [limit, depth]
  | succ n ih =>
    cases j with
    | arr items =>
      rw [limit, limitItems_eq_map, depth, depth, Nat.succ_le_succ_iff, depthItems_le_iff,
        List.forall_mem_map]
      exact fun x hx => Nat.le_trans (ih x) (depthItems_le_iff.1 (Nat.le_refl _) x hx)
    | obj members =>
      rw [limit, limitMembers_eq_map, depth, depth, Nat.succ_le_succ_iff, depthMembers_le_iff,
        List.forall_mem_map]
      exact fun m hm => Nat.le_trans (ih m.2) (depthMembers_le_iff.1 (Nat.le_refl _) m hm)
    | _ => simp [limit]

end Json

namespace Native

namespace Ty

theorem depth_of_simple? {tag : String} {ty : Ty} (h : simple? tag = some ty) :
    ty.lower.toJson.depth ≤ 2 := by
  unfold simple? at h
  split at h <;> cases h <;> decide

theorem depthItems_listJson_le {ts : List Ty} {n : Nat}
    (h : ∀ t ∈ ts, t.lower.toJson.depth ≤ n) :
    Json.depthItems (Dialect.Ty.listJson (lowerList ts)) ≤ n := by
  induction ts with
  | nil => exact Nat.zero_le n
  | cons t ts ih =>
    obtain ⟨ht, hts⟩ := List.forall_mem_cons.1 h
    exact Nat.max_le.2 ⟨ht, ih hts⟩

section Body

variable {readPart : Json → Option Ty}
  (hpart : ∀ x ty, readPart x = some ty → ty.lower.toJson.depth ≤ x.depth + 2)

include hpart

theorem depth_of_slot {names : List String} {body : Json} {ss : List Json.Slot} {s : Json.Slot}
    {ty : Ty} (h : Json.slots names body = some ss) (hs : s ∈ ss)
    (hty : s.required readPart = some ty) : ty.lower.toJson.depth ≤ body.depth + 1 := by
  obtain ⟨x, hx, hread⟩ := Json.exists_of_slots h hs hty
  have hdepth := hpart x ty hread
  omega

theorem depthItems_of_slot {names : List String} {body : Json} {ss : List Json.Slot}
    {s : Json.Slot} {ts : List Ty} (h : Json.slots names body = some ss) (hs : s ∈ ss)
    (hts : s.required (Json.readList readPart) = some ts) :
    Json.depthItems (Dialect.Ty.listJson (lowerList ts)) ≤ body.depth := by
  refine depthItems_listJson_le fun t ht => ?_
  obtain ⟨x, hx, hread⟩ := Json.exists_of_slots_list h hs hts ht
  have hdepth := hpart x t hread
  omega

theorem depth_of_readBody {tag : String} {body : Json} {ty : Ty}
    (h : readBody readPart tag body = some ty) : ty.lower.toJson.depth ≤ body.depth + 3 := by
  unfold readBody at h
  split at h
  · obtain ⟨target, htarget, h⟩ := Option.bind_eq_some_iff.1 h
    cases h
    have hdepth := hpart body target htarget
    simp only [lower, Dialect.Ty.toJson, Json.depth_tagged]
    omega
  · obtain ⟨ss, hss, h⟩ := Option.bind_eq_some_iff.1 h
    split at h
    · obtain ⟨size, -, h⟩ := Option.bind_eq_some_iff.1 h
      obtain ⟨element, helement, h⟩ := Option.bind_eq_some_iff.1 h
      cases h
      have hdepth := depth_of_slot hpart hss (by simp) helement
      simp only [lower, Dialect.Ty.toJson, Json.depth_tagged, Json.depth, Json.depthMembers,
        Json.ofUInt64]
      omega
    · cases h
  · obtain ⟨ss, hss, h⟩ := Option.bind_eq_some_iff.1 h
    split at h
    · obtain ⟨ret, hret, h⟩ := Option.bind_eq_some_iff.1 h
      obtain ⟨params, hparams, h⟩ := Option.bind_eq_some_iff.1 h
      obtain ⟨vararg, -, h⟩ := Option.bind_eq_some_iff.1 h
      cases h
      have hdepth := depth_of_slot hpart hss (by simp) hret
      have hitems := depthItems_of_slot hpart hss (by simp) hparams
      simp only [lower, Dialect.Ty.toJson, Json.depth_tagged, Json.depth, Json.depthMembers]
      omega
    · cases h
  · obtain ⟨ss, hss, h⟩ := Option.bind_eq_some_iff.1 h
    split at h
    · obtain ⟨name, -, h⟩ := Option.bind_eq_some_iff.1 h
      obtain ⟨fields, hfields, h⟩ := Option.bind_eq_some_iff.1 h
      obtain ⟨packed, -, h⟩ := Option.bind_eq_some_iff.1 h
      cases h
      have hname : (Json.ofOption Json.str name).depth ≤ 0 :=
        Json.depth_ofOption_le fun _ => Nat.le_refl 0
      have hitems := depthItems_of_slot hpart hss (by simp) hfields
      simp only [lower, Dialect.Ty.toJson, Json.depth_tagged, Json.depth, Json.depthMembers]
      omega
    · cases h
  · split at h
    · exact Nat.le_trans (depth_of_simple? h) (by omega)
    · cases h

end Body

theorem depth_of_readUpTo {n : Nat} {j : Json} {ty : Ty} (h : readUpTo n j = some ty) :
    ty.lower.toJson.depth ≤ j.depth + 2 := by
  induction n generalizing j ty with
  | zero => cases h
  | succ n ih =>
    obtain ⟨⟨tag, body⟩, hvariant, h⟩ := Option.bind_eq_some_iff.1 h
    cases body with
    | none => exact Nat.le_trans (depth_of_simple? h) (by omega)
    | some body =>
      have hbody := Json.depth_lt_of_variant hvariant
      have hdepth := depth_of_readBody (fun x ty => ih) h
      omega

/-- An integer takes two levels more in the dialect than in the host's text, and nothing else takes
any. -/
theorem depth_of_read {j : Json} {ty : Ty} (h : read j = some ty) :
    ty.lower.toJson.depth ≤ j.depth + 2 :=
  depth_of_readUpTo h

end Ty

namespace Instruction

theorem exists_of_field {names : List String} {body : Json} {ss : List Json.Slot} {s : Json.Slot}
    {result ty : Ty} (h : Json.slots names body = some ss) (hs : s ∈ ss)
    (hresult : s.required Ty.read = some result) (hty : ty ∈ some result ∨ ty ∈ none) :
    ∃ x, x.depth < body.depth ∧ Ty.read x = some ty := by
  have heq : result = ty := by simpa using hty
  subst heq
  exact Json.exists_of_slots h hs hresult

theorem exists_of_readBody {tag : String} {body : Json} {i : Instruction}
    (h : readBody tag body = some i) {ty : Ty} (hty : ty ∈ i.ty? ∨ ty ∈ i.allocated?) :
    ∃ x, x.depth < body.depth ∧ Ty.read x = some ty := by
  unfold readBody at h
  split at h <;>
    simp only [Option.bind_eq_bind, Option.bind_eq_some_iff, Option.pure_def, reduceCtorEq] at h
  case h_1 | h_13 =>
    obtain ⟨ss, hss, h⟩ := h
    split at h
    · simp only [Option.bind_eq_some_iff, Option.some.injEq] at h
      obtain ⟨_, -, _, -, _, -, _, -, _, hresult, rfl⟩ := h
      exact exists_of_field hss (by simp) hresult hty
    · cases h
  case h_2 | h_5 | h_14 =>
    obtain ⟨ss, hss, h⟩ := h
    split at h
    · simp only [Option.bind_eq_some_iff, Option.some.injEq] at h
      obtain ⟨_, -, _, -, _, -, _, hresult, rfl⟩ := h
      exact exists_of_field hss (by simp) hresult hty
    · cases h
  case h_3 | h_11 | h_12 =>
    obtain ⟨ss, hss, h⟩ := h
    split at h
    · simp only [Option.bind_eq_some_iff, Option.some.injEq] at h
      obtain ⟨_, -, _, -, _, hresult, rfl⟩ := h
      exact exists_of_field hss (by simp) hresult hty
    · cases h
  case h_7 =>
    obtain ⟨ss, hss, h⟩ := h
    split at h
    · simp only [Option.bind_eq_some_iff, Option.some.injEq] at h
      obtain ⟨_, -, _, -, _, -, _, hresult, _, -, rfl⟩ := h
      exact exists_of_field hss (by simp) hresult hty
    · cases h
  case h_6 =>
    obtain ⟨ss, hss, h⟩ := h
    split at h
    · simp only [Option.bind_eq_some_iff, Option.some.injEq] at h
      obtain ⟨_, -, _, hallocated, _, -, _, hresult, rfl⟩ := h
      rcases hty with hty | hty
      · exact exists_of_field hss (by simp) hresult (.inl hty)
      · exact exists_of_field hss (by simp) hallocated (.inl hty)
    · cases h
  -- The rest have no types.
  case h_4 | h_10 | h_15 | h_16 =>
    obtain ⟨ss, hss, h⟩ := h
    split at h
    · simp only [Option.bind_eq_some_iff, Option.some.injEq] at h
      grind [ty?, allocated?]
    · cases h
  case h_8 | h_9 | h_17 =>
    obtain ⟨_, -, h⟩ := h
    cases h
    simp [ty?, allocated?] at hty

theorem within_of_read {j : Json} {i : Instruction} (h : read j = some i) :
    ∀ x ∈ i.placedTypes, Within (j.depth + 11) x := by
  obtain ⟨⟨tag, body⟩, hvariant, h⟩ := Option.bind_eq_some_iff.1 h
  cases body with
  | none => cases h
  | some body =>
    have hbody := Json.depth_lt_of_variant hvariant
    have htype {ty : Ty} (hty : ty ∈ i.ty? ∨ ty ∈ i.allocated?) :
        ty.lower.toJson.depth ≤ j.depth := by
      obtain ⟨x, hx, hread⟩ := exists_of_readBody h hty
      have hdepth := Ty.depth_of_read hread
      omega
    simp only [placedTypes, List.forall_mem_append, List.forall_mem_map, Option.mem_toList, Within]
    refine ⟨fun ty hty => ?_, fun ty hty => ?_⟩
    · exact Nat.add_le_add (htype (.inl hty)) (by decide)
    · exact Nat.add_le_add (htype (.inr hty)) (by decide)

end Instruction

theorem Within.mono {n n' : Nat} {x : Nat × Ty} (h : Within n x) (hn : n ≤ n') : Within n' x :=
  Nat.le_trans h hn

theorem Block.within_of_read {j : Json} {b : Block} (h : read j = some b) :
    ∀ i ∈ b.instructions, ∀ x ∈ i.placedTypes, Within (j.depth + 9) x := by
  obtain ⟨ss, hss, h⟩ := Option.bind_eq_some_iff.1 h
  split at h
  · obtain ⟨id, -, h⟩ := Option.bind_eq_some_iff.1 h
    obtain ⟨instructions, hinstructions, h⟩ := Option.bind_eq_some_iff.1 h
    obtain ⟨preds, -, h⟩ := Option.bind_eq_some_iff.1 h
    obtain ⟨succs, -, h⟩ := Option.bind_eq_some_iff.1 h
    cases h
    intro i hi x hx
    obtain ⟨y, hy, hread⟩ := Json.exists_of_slots_list hss (by simp) hinstructions hi
    exact (Instruction.within_of_read hread x hx).mono (by omega)
  · cases h

theorem Function.within_of_read {j : Json} {f : Function} (h : read j = some f) :
    Within (j.depth + 7) (5, f.returnType) ∧ (∀ p ∈ f.params, Within (j.depth + 7) (7, p.2)) ∧
      ∀ b ∈ f.blocks, ∀ i ∈ b.instructions, ∀ x ∈ i.placedTypes, Within (j.depth + 7) x := by
  obtain ⟨ss, hss, h⟩ := Option.bind_eq_some_iff.1 h
  split at h
  · obtain ⟨name, -, h⟩ := Option.bind_eq_some_iff.1 h
    obtain ⟨returnType, hreturnType, h⟩ := Option.bind_eq_some_iff.1 h
    obtain ⟨params, hparams, h⟩ := Option.bind_eq_some_iff.1 h
    obtain ⟨blocks, hblocks, h⟩ := Option.bind_eq_some_iff.1 h
    obtain ⟨isExternal, -, h⟩ := Option.bind_eq_some_iff.1 h
    obtain ⟨isVararg, -, h⟩ := Option.bind_eq_some_iff.1 h
    obtain ⟨inlineHint, -, h⟩ := Option.bind_eq_some_iff.1 h
    obtain ⟨location, -, h⟩ := Option.bind_eq_some_iff.1 h
    cases h
    refine ⟨?_, fun p hp => ?_, fun b hb i hi x hx => ?_⟩
    · obtain ⟨y, hy, hread⟩ := Json.exists_of_slots hss (by simp) hreturnType
      have hdepth := Ty.depth_of_read hread
      simp only [Within]
      omega
    · obtain ⟨y, hy, hpair⟩ := Json.exists_of_slots_list hss (by simp) hparams hp
      obtain ⟨z, hz, hread⟩ := Json.exists_of_readPair hpair
      have hdepth := Ty.depth_of_read hread
      simp only [Within]
      omega
    · obtain ⟨y, hy, hread⟩ := Json.exists_of_slots_list hss (by simp) hblocks hb
      exact (Block.within_of_read hread i hi x hx).mono (by omega)
  · cases h

theorem Global.within_of_read {j : Json} {g : Global} (h : read j = some g) :
    Within (j.depth + 7) (5, g.ty) := by
  obtain ⟨ss, hss, h⟩ := Option.bind_eq_some_iff.1 h
  split at h
  · obtain ⟨name, -, h⟩ := Option.bind_eq_some_iff.1 h
    obtain ⟨ty, hty, h⟩ := Option.bind_eq_some_iff.1 h
    obtain ⟨isConstant, -, h⟩ := Option.bind_eq_some_iff.1 h
    obtain ⟨initial, -, h⟩ := Option.bind_eq_some_iff.1 h
    obtain ⟨linkage, -, h⟩ := Option.bind_eq_some_iff.1 h
    cases h
    obtain ⟨y, hy, hread⟩ := Json.exists_of_slots hss (by simp) hty
    have hdepth := Ty.depth_of_read hread
    simp only [Within]
    omega
  · cases h

theorem Module.within_of_read {j : Json} {m : Module} (h : read j = some m) :
    ∀ x ∈ m.placedTypes, Within (j.depth + 5) x := by
  obtain ⟨ss, hss, h⟩ := Option.bind_eq_some_iff.1 h
  split at h
  · obtain ⟨name, -, h⟩ := Option.bind_eq_some_iff.1 h
    obtain ⟨functions, hfunctions, h⟩ := Option.bind_eq_some_iff.1 h
    obtain ⟨globals, hglobals, h⟩ := Option.bind_eq_some_iff.1 h
    obtain ⟨typeDefs, htypeDefs, h⟩ := Option.bind_eq_some_iff.1 h
    cases h
    rw [forall_mem_placedTypes_iff]
    refine ⟨fun e he => ?_, fun g hg => ?_, fun f hf => ?_⟩
    · obtain ⟨y, hy, htable⟩ := Json.exists_of_slots hss (by simp) htypeDefs
      obtain ⟨z, hz, hread⟩ := Json.exists_of_readTable htable he
      have hdepth := Ty.depth_of_read hread
      simp only [Within]
      omega
    · obtain ⟨y, hy, hread⟩ := Json.exists_of_slots_list hss (by simp) hglobals hg
      exact (Global.within_of_read hread).mono (by omega)
    · obtain ⟨y, hy, hread⟩ := Json.exists_of_slots_list hss (by simp) hfunctions hf
      obtain ⟨hreturnType, hparams, hblocks⟩ := Function.within_of_read hread
      refine ⟨hreturnType.mono (by omega), fun p hp => (hparams p hp).mono (by omega), ?_⟩
      exact fun b hb i hi x hx => (hblocks b hb i hi x hx).mono (by omega)
  · cases h

/-- An invocation nests no more than five levels deeper than the text from which its module was
loaded. -/
theorem Module.within_of_load {text : String} {m : Module} {j : Json} (h : load text = some m)
    (hj : Json.parse text = some j) : ∀ x ∈ m.placedTypes, Within (j.depth + 5) x := by
  obtain ⟨found, hfound, hread⟩ := Option.bind_eq_some_iff.1 h
  rw [Json.read, hj, Option.map_some, Option.some.injEq] at hfound
  subst hfound
  have hlimit := Json.depth_limit_le Json.maxDepth j
  exact fun x hx => (within_of_read hread x hx).mono (by omega)

end Native

end PassEngine
