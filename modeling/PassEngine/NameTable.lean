import PassEngine.Json.Shape

namespace PassEngine

/-- Things under distinct names, in the order of the names. -/
structure NameTable (α : Type) where
  entries : List (String × α)
  sorted : entries.Pairwise fun a b => a.1 < b.1

namespace NameTable

variable {α β : Type}

instance [DecidableEq α] : DecidableEq (NameTable α) := fun a b =>
  decidable_of_iff (a.entries = b.entries) (by cases a; cases b; simp)

def empty : NameTable α := ⟨[], .nil⟩

instance : Inhabited (NameTable α) := ⟨empty⟩

/-- Puts an entry in its place. An entry of the same name is replaced. -/
def insertEntry (name : String) (a : α) : List (String × α) → List (String × α)
  | [] => [(name, a)]
  | e :: es =>
    if name < e.1 then (name, a) :: e :: es
    else if name = e.1 then (name, a) :: es
    else e :: insertEntry name a es

theorem mem_insertEntry {name : String} {a : α} {es : List (String × α)} {e : String × α}
    (h : e ∈ insertEntry name a es) : e = (name, a) ∨ e ∈ es := by
  induction es with
  | nil => simpa [insertEntry] using h
  | cons x xs ih =>
    simp only [insertEntry] at h
    split at h
    · simpa using h
    · split at h
      · rcases List.mem_cons.1 h with h | h
        · exact .inl h
        · exact .inr (List.mem_cons_of_mem _ h)
      · rcases List.mem_cons.1 h with h | h
        · exact .inr (h ▸ List.mem_cons_self)
        · exact (ih h).imp_right (List.mem_cons_of_mem _)

theorem lt_of_not_lt_of_ne {a b : String} (h : ¬a < b) (hne : a ≠ b) : b < a := by
  rcases String.le_total a b with hab | hab
  · exact absurd (String.le_antisymm hab (String.not_lt.1 h)) hne
  · exact Decidable.byContradiction fun hba => hne (String.le_antisymm (String.not_lt.1 hba) hab)

theorem sorted_insertEntry (name : String) (a : α) {es : List (String × α)}
    (h : es.Pairwise fun a b => a.1 < b.1) :
    (insertEntry name a es).Pairwise fun a b => a.1 < b.1 := by
  induction es with
  | nil => simp [insertEntry]
  | cons x xs ih =>
    obtain ⟨hx, hxs⟩ := List.pairwise_cons.1 h
    simp only [insertEntry]
    split
    · next hlt =>
      refine List.pairwise_cons.2 ⟨fun y hy => ?_, h⟩
      rcases List.mem_cons.1 hy with rfl | hy
      · exact hlt
      · exact String.lt_trans hlt (hx y hy)
    · next hlt =>
      split
      · next heq =>
        exact List.pairwise_cons.2 ⟨fun y hy => heq ▸ hx y hy, hxs⟩
      · next hne =>
        refine List.pairwise_cons.2 ⟨fun y hy => ?_, ih hxs⟩
        rcases mem_insertEntry hy with rfl | hy
        · exact lt_of_not_lt_of_ne hlt hne
        · exact hx y hy

def insert (t : NameTable α) (name : String) (a : α) : NameTable α :=
  ⟨insertEntry name a t.entries, sorted_insertEntry name a t.sorted⟩

/-- Of several entries of one name the last one stays. -/
def ofList (es : List (String × α)) : NameTable α :=
  es.foldl (fun t e => t.insert e.1 e.2) empty

def get? (t : NameTable α) (name : String) : Option α :=
  (t.entries.find? (·.1 == name)).map (·.2)

def map (f : α → β) (t : NameTable α) : NameTable β :=
  ⟨t.entries.map fun e => (e.1, f e.2), by
    have h := t.sorted
    exact List.pairwise_map.2 h⟩

@[simp] theorem entries_map (f : α → β) (t : NameTable α) :
    (t.map f).entries = t.entries.map fun e => (e.1, f e.2) := rfl

def traverse {ε : Type} (f : α → Except ε β) (t : NameTable α) : Except ε (NameTable β) := do
  return ofList (← t.entries.mapM fun e => do return (e.1, ← f e.2))

def read (readEntry : Json → Option α) : Json → Option (NameTable α)
  | .obj members => (members.mapM fun m => (readEntry m.2).map (m.1, ·)).map ofList
  | _ => none

def toJson (write : α → Json) (t : NameTable α) : Json :=
  .obj (t.entries.map fun e => (e.1, write e.2))

end NameTable

end PassEngine
