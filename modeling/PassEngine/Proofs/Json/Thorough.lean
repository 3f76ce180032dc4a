import PassEngine.Proofs.Json.Lossless

namespace PassEngine.Json

variable {α β : Type} {n : Nat}

/-- A reader that passes over no part of what is written: if it makes anything of what a limit has
left, the limit has broken nothing. -/
structure Thorough (write : α → Json) (read : Json → Option α) : Prop where
  depth_le {n : Nat} {a b : α} (h : read (limit n (write a)) = some b) : (write a).depth ≤ n

theorem eq_null_of_limit {j : Json} (h : limit n j = null) : j = null := by
  cases n <;> cases j <;> simp_all [limit]

theorem limit_succ_obj (n : Nat) (members : List (String × Json)) :
    limit (n + 1) (obj members) = obj (members.map fun m => (m.1, limit n m.2)) := by
  rw [limit, limitMembers_eq_map]

theorem depth_obj_le_succ_iff {members : List (String × Json)} :
    (obj members).depth ≤ n + 1 ↔ ∀ m ∈ members, m.2.depth ≤ n := by
  rw [depth, Nat.succ_le_succ_iff, depthMembers_le_iff]

theorem exists_of_mapM_eq_some {f : α → Option β} {as : List α} {bs : List β}
    (h : as.mapM f = some bs) : ∀ a ∈ as, ∃ b, f a = some b := by
  induction as generalizing bs with
  | nil => exact nofun
  | cons a as ih =>
    rw [List.mapM_cons] at h
    obtain ⟨b, hb, h⟩ := Option.bind_eq_some_iff.1 h
    obtain ⟨bs', hbs, -⟩ := Option.bind_eq_some_iff.1 h
    exact List.forall_mem_cons.2 ⟨⟨b, hb⟩, ih hbs⟩

theorem filter_key_of_nodup {members : List (String × Json)} (h : (members.map (·.1)).Nodup)
    {m : String × Json} (hm : m ∈ members) : members.filter (·.1 == m.1) = [m] := by
  induction members with
  | nil => cases hm
  | cons m' ms ih =>
    obtain ⟨hkey, hms⟩ := List.nodup_cons.1 h
    rcases List.mem_cons.1 hm with rfl | hm
    · have hrest : ms.filter (·.1 == m.1) = [] := by
        rw [List.filter_eq_nil_iff]
        intro x hx heq
        exact hkey (List.mem_map.2 ⟨x, hx, eq_of_beq heq⟩)
      rw [List.filter_cons, if_pos (beq_self_eq_true m.1), hrest]
    · have hne : ¬(m'.1 == m.1) = true := by
        intro heq
        exact hkey (List.mem_map.2 ⟨m, hm, (eq_of_beq heq).symm⟩)
      rw [List.filter_cons, if_neg hne, ih hms hm]

theorem slots_obj {members : List (String × Json)} (h : (members.map (·.1)).Nodup) :
    slots (members.map (·.1)) (obj members) = some (members.map fun m => .given m.2) := by
  rw [slots, List.mapM_map]
  apply mapM_eq_some_map
  intro m hm
  simp only [Function.comp_apply, filter_key_of_nodup h hm]

/-- The fields of a record under a limit, which leaves a record only if it has a level for it. -/
theorem slots_limit {names : List String} {members : List (String × Json)} {ss : List Slot}
    (h : slots names (limit n (obj members)) = some ss) (hnames : members.map (·.1) = names)
    (hnodup : names.Nodup) :
    ∃ k, n = k + 1 ∧ ss = members.map fun m => .given (limit k m.2) := by
  obtain _ | k := n
  · cases h
  · refine ⟨k, rfl, ?_⟩
    subst hnames
    have hkeys : (members.map fun m => (m.1, limit k m.2)).map (·.1) = members.map (·.1) := by
      rw [List.map_map]
      rfl
    have hslots := slots_obj (hkeys ▸ hnodup)
    rw [hkeys, List.map_map] at hslots
    rw [limit_succ_obj, hslots] at h
    exact (Option.some.inj h).symm

theorem variant_limit {tag tag' : String} {body : Json} {body' : Option Json}
    (h : variant (limit n (tagged tag body)) = some (tag', body')) :
    ∃ k, n = k + 1 ∧ tag' = tag ∧ body' = some (limit k body) := by
  obtain _ | k := n
  · cases h
  · rw [tagged, limit_succ_obj] at h
    cases h
    exact ⟨k, rfl, rfl, rfl⟩

namespace Thorough

variable {write : α → Json} {read : Json → Option α} {write' : β → Json} {read' : Json → Option β}

theorem of_depth_eq_zero (h : ∀ a, (write a).depth = 0) : Thorough write read where
  depth_le {n a b} _ := by
    rw [h a]
    exact Nat.zero_le n

theorem list (h : Thorough write read) : Thorough (ofList write) (readList read) where
  depth_le {n xs ys} hread := by
    obtain _ | n := n
    · cases hread
    · rw [ofList, limit, limitItems_eq_map] at hread
      rw [ofList, depth, Nat.succ_le_succ_iff, depthItems_le_iff, List.forall_mem_map]
      intro x hx
      obtain ⟨y, hy⟩ := exists_of_mapM_eq_some hread _
        (List.mem_map_of_mem (List.mem_map_of_mem hx))
      exact h.depth_le hy

theorem pair (h : Thorough write read) (h' : Thorough write' read') :
    Thorough (fun p => .arr [write p.1, write' p.2]) (readPair read read') where
  depth_le {n p q} hread := by
    obtain _ | n := n
    · cases hread
    · rw [limit, limitItems_eq_map] at hread
      obtain ⟨a, ha, hread⟩ := Option.bind_eq_some_iff.1 hread
      obtain ⟨b, hb, -⟩ := Option.bind_eq_some_iff.1 hread
      have hfirst := h.depth_le ha
      have hsecond := h'.depth_le hb
      simp only [depth, depthItems]
      omega

theorem table (h : Thorough write read) :
    Thorough (NameTable.toJson write) (NameTable.read read) where
  depth_le {n t t'} hread := by
    obtain _ | n := n
    · cases hread
    · rw [NameTable.toJson, limit_succ_obj] at hread
      obtain ⟨es, hes, -⟩ := Option.map_eq_some_iff.1 hread
      rw [NameTable.toJson, depth_obj_le_succ_iff, List.forall_mem_map]
      intro e he
      obtain ⟨e', he'⟩ := exists_of_mapM_eq_some hes _
        (List.mem_map_of_mem (List.mem_map_of_mem he))
      obtain ⟨a, ha, -⟩ := Option.map_eq_some_iff.1 he'
      exact h.depth_le ha

theorem depth_ofOption_le_of_read (h : Thorough write read) {x y : Option α}
    (hread : readOption read (limit n (ofOption write x)) = some y) :
    (ofOption write x).depth ≤ n := by
  cases x with
  | none => exact Nat.zero_le n
  | some a =>
    rw [ofOption] at hread ⊢
    unfold readOption at hread
    split at hread
    · next hnull =>
      rw [eq_null_of_limit hnull]
      exact Nat.zero_le n
    · obtain ⟨b, hb, -⟩ := Option.map_eq_some_iff.1 hread
      exact h.depth_le hb

end Thorough

end PassEngine.Json
