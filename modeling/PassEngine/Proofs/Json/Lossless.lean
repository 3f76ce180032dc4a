import PassEngine.NameTable
import PassEngine.Proofs.Json.Reading
import PassEngine.Proofs.NameTable

namespace PassEngine.Json

variable {α β : Type}

/-- A way to write things, and a reader that brings them back. What is written survives as a text,
and is never null, so that null can stand for nothing. -/
structure Lossless (write : α → Json) (read : Json → Option α) : Prop where
  faithful (a : α) : (write a).Faithful
  ne_null (a : α) : write a ≠ .null
  read_write (a : α) : read (write a) = some a

theorem faithful_natCast {n : Nat} (h : n < UInt64.size) : Faithful (.int n) := by
  refine .int ?_ (Int.ofNat_lt.2 h)
  have hmin : Int64.minValue.toInt ≤ 0 := by decide
  omega

theorem readNat_natCast {n bound : Nat} (h : n < bound) : readNat bound (.int n) = some n := by
  rw [readNat, if_pos ⟨by omega, by omega⟩, Int.toNat_natCast]

theorem faithful_tagged (tag : String) {body : Json} (h : body.Faithful) :
    (tagged tag body).Faithful := by
  refine .obj (List.nodup_singleton tag) fun m hm => ?_
  rw [List.mem_singleton.1 hm]
  exact h

theorem faithful_record (names : List String) {members : List (String × Json)}
    (hnames : members.map (·.1) = names) (hnodup : names.Nodup)
    (h : ∀ m ∈ members, m.2.Faithful) : (Json.obj members).Faithful :=
  .obj (hnames ▸ hnodup) h

theorem mapM_eq_some_map {f : α → Option β} {g : α → β} {as : List α}
    (h : ∀ a ∈ as, f a = some (g a)) : as.mapM f = some (as.map g) := by
  induction as with
  | nil => rfl
  | cons a as ih =>
    obtain ⟨ha, has⟩ := List.forall_mem_cons.1 h
    rw [List.mapM_cons, ha, ih has]
    rfl

theorem mapM_map_eq_some {write : α → β} {read : β → Option α}
    (h : ∀ a, read (write a) = some a) (xs : List α) : (xs.map write).mapM read = some xs := by
  have hxs : ∀ a ∈ xs, (read ∘ write) a = some (id a) := fun a _ => h a
  rw [List.mapM_map, mapM_eq_some_map hxs, List.map_id]

namespace Lossless

theorem str : Lossless .str readString where
  faithful := .str
  ne_null _ := nofun
  read_write _ := rfl

theorem bool : Lossless .bool readBool where
  faithful := .bool
  ne_null _ := nofun
  read_write _ := rfl

theorem uint8 : Lossless ofUInt8 readUInt8 where
  faithful n := faithful_natCast (Nat.lt_trans n.toNat_lt (by decide))
  ne_null _ := nofun
  read_write n := by simp [readUInt8, ofUInt8, readNat_natCast n.toNat_lt]

theorem uint32 : Lossless ofUInt32 readUInt32 where
  faithful n := faithful_natCast (Nat.lt_trans n.toNat_lt (by decide))
  ne_null _ := nofun
  read_write n := by simp [readUInt32, ofUInt32, readNat_natCast n.toNat_lt]

theorem uint64 : Lossless ofUInt64 readUInt64 where
  faithful n := faithful_natCast n.toNat_lt
  ne_null _ := nofun
  read_write n := by simp [readUInt64, ofUInt64, readNat_natCast n.toNat_lt]

theorem int64 : Lossless ofInt64 readInt64 where
  faithful n := by
    have hmax := n.toInt_le
    refine .int n.minValue_le_toInt (Int.lt_of_le_of_lt hmax (by decide))
  ne_null _ := nofun
  read_write n := by
    rw [ofInt64, readInt64, if_pos ⟨n.minValue_le_toInt, n.toInt_le⟩, Int64.ofInt_toInt]

theorem name (unit : UnitForm) (names : Naming α) :
    Lossless (fun a => .str (names.name a)) (readName unit names) where
  faithful a := .str (names.name a)
  ne_null _ := nofun
  read_write a := by simp [readName, variant]

variable {write : α → Json} {read : Json → Option α} {write' : β → Json} {read' : Json → Option β}

theorem list (h : Lossless write read) : Lossless (ofList write) (readList read) where
  faithful xs := by
    refine .arr fun j hj => ?_
    obtain ⟨x, -, rfl⟩ := List.mem_map.1 hj
    exact h.faithful x
  ne_null _ := nofun
  read_write xs := mapM_map_eq_some h.read_write xs

theorem pair (h : Lossless write read) (h' : Lossless write' read') :
    Lossless (fun p => .arr [write p.1, write' p.2]) (readPair read read') where
  faithful p := .arr (by simp [h.faithful, h'.faithful])
  ne_null _ := nofun
  read_write p := by simp [readPair, h.read_write, h'.read_write]

/-- The names of a table are all different, for they ascend. -/
theorem table (h : Lossless write read) :
    Lossless (NameTable.toJson write) (NameTable.read read) where
  faithful t := by
    refine .obj ?_ fun m hm => ?_
    · rw [List.map_map]
      refine (List.pairwise_map.2 t.sorted).imp fun hlt heq => ?_
      exact absurd (heq ▸ hlt) (String.lt_irrefl _)
    · obtain ⟨e, -, rfl⟩ := List.mem_map.1 hm
      exact h.faithful e.2
  ne_null _ := nofun
  read_write t := by
    have hentries : (t.entries.map fun e => (e.1, write e.2)).mapM
        (fun m => (read m.2).map (m.1, ·)) = some t.entries :=
      mapM_map_eq_some (fun e => by rw [h.read_write, Option.map_some]) t.entries
    rw [NameTable.toJson, NameTable.read, hentries, Option.map_some, NameTable.ofList_entries]

theorem faithful_ofOption (h : Lossless write read) (x : Option α) :
    (ofOption write x).Faithful := by
  cases x with
  | none => exact .null
  | some a => exact h.faithful a

/-- Null stands for nothing and for nothing else. -/
theorem readOption_ofOption (h : Lossless write read) (x : Option α) :
    readOption read (ofOption write x) = some x := by
  cases x with
  | none => rfl
  | some a =>
    rw [ofOption, readOption, h.read_write, Option.map_some]
    exact h.ne_null a

end Lossless

end PassEngine.Json
