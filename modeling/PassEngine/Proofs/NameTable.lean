import PassEngine.NameTable
import Mathlib.Data.List.Induction

namespace PassEngine.NameTable

variable {α : Type}

theorem ext_entries {s t : NameTable α} (h : s.entries = t.entries) : s = t := by
  cases s
  cases t
  congr

theorem insertEntry_of_forall_lt {name : String} {a : α} {es : List (String × α)}
    (h : ∀ e ∈ es, e.1 < name) : insertEntry name a es = es ++ [(name, a)] := by
  induction es with
  | nil => rfl
  | cons e es ih =>
    have he : e.1 < name := h e (by simp)
    have hne : name ≠ e.1 := fun heq => String.lt_irrefl _ (heq ▸ he)
    rw [insertEntry, if_neg (fun hlt => String.lt_irrefl _ (String.lt_trans hlt he)), if_neg hne,
      ih fun e' he' => h e' (List.mem_cons_of_mem _ he')]
    rfl

theorem entries_foldl_insert (es : List (String × α)) (t : NameTable α)
    (h : (t.entries ++ es).Pairwise fun a b => a.1 < b.1) :
    (es.foldl (fun t e => t.insert e.1 e.2) t).entries = t.entries ++ es := by
  induction es generalizing t with
  | nil => simp
  | cons e es ih =>
    have hlt : ∀ e' ∈ t.entries, e'.1 < e.1 := fun e' he' =>
      (List.pairwise_append.1 h).2.2 e' he' e (by simp)
    have hins : (t.insert e.1 e.2).entries = t.entries ++ [e] := insertEntry_of_forall_lt hlt
    rw [List.foldl_cons, ih _ (by rw [hins]; simpa using h), hins, List.append_assoc]
    rfl

theorem entries_ofList {es : List (String × α)} (h : es.Pairwise fun a b => a.1 < b.1) :
    (ofList es).entries = es :=
  entries_foldl_insert es empty h

theorem ofList_entries (t : NameTable α) : ofList t.entries = t :=
  ext_entries (entries_ofList t.sorted)

theorem mem_of_mem_foldl_insert {es : List (String × α)} {t : NameTable α} {e : String × α}
    (h : e ∈ (es.foldl (fun t e => t.insert e.1 e.2) t).entries) : e ∈ t.entries ∨ e ∈ es := by
  induction es generalizing t with
  | nil => exact .inl h
  | cons e' es ih =>
    rcases ih h with h | h
    · rcases mem_insertEntry h with rfl | h
      · exact .inr List.mem_cons_self
      · exact .inl h
    · exact .inr (List.mem_cons_of_mem _ h)

theorem mem_of_get?_ofList {es : List (String × α)} {name : String} {a : α}
    (h : (ofList es).get? name = some a) : (name, a) ∈ es := by
  obtain ⟨⟨name', a'⟩, hfind, rfl⟩ := Option.map_eq_some_iff.1 h
  have hname := List.find?_some hfind
  rw [beq_iff_eq] at hname
  subst hname
  rcases mem_of_mem_foldl_insert (List.mem_of_find?_eq_some hfind) with h | h
  · cases h
  · exact h

theorem get?_insert (t : NameTable α) (name : String) (a : α) (key : String) :
    (t.insert name a).get? key = if name = key then some a else t.get? key := by
  simp only [get?, insert]
  induction t.entries with
  | nil => by_cases hkey : name = key <;> simp [insertEntry, hkey]
  | cons e es ih =>
    rw [insertEntry]
    split
    · by_cases hkey : name = key <;> simp [hkey]
    · split
      · next heq =>
        by_cases hkey : name = key
        · simp [hkey]
        · have hkey' : e.1 ≠ key := heq ▸ hkey
          simp [hkey, hkey']
      · next hne =>
        by_cases hkey : e.1 = key
        · have hkey' : name ≠ key := hkey ▸ hne
          simp [hkey, hkey']
        · simpa [hkey] using ih

/-- In a table of names with their positions, a name stands for the last position that it has. -/
theorem get?_ofList_zipIdx {names : List String} {name : String} {i : Nat} :
    (ofList names.zipIdx).get? name = some i ↔
      names[i]? = some name ∧ ∀ j, i < j → names[j]? ≠ some name := by
  induction names using List.reverseRecOn with
  | nil => simp [ofList, get?, empty]
  | append_singleton names last ih =>
    have hconcat (j : Nat) : (names ++ [last])[j]? = some name ↔
        names[j]? = some name ∨ (j = names.length ∧ last = name) := by
      grind
    have htable : ofList (names ++ [last]).zipIdx =
        (ofList names.zipIdx).insert last names.length := by
      simp [ofList, List.zipIdx_append]
    rw [htable, get?_insert]
    simp only [ne_eq, hconcat]
    by_cases hlast : last = name
    · grind
    · simpa [hlast] using ih

end PassEngine.NameTable
