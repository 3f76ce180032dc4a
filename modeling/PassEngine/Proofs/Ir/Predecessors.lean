import Mathlib.Data.List.Induction
import Mathlib.Data.List.Nodup
import PassEngine.Ir.Edges

namespace PassEngine

instance : Std.TransOrd BlockId :=
  inferInstanceAs (Std.TransCmp (compareOn BlockId.index))

instance : Std.LawfulEqOrd BlockId where
  eq_of_compare {a b} h := by
    have hindex : a.index = b.index := Std.LawfulEqOrd.eq_of_compare h
    cases a
    cases b
    rw [BlockId.mk.injEq]
    exact hindex

section Linking

variable {α β γ : Type} {f : α → β → α}

theorem map_zipWith_of_eq {g : α → γ} (hg : ∀ a b, g (f a b) = g a) {as : List α} {bs : List β}
    (hlength : as.length = bs.length) : (as.zipWith f bs).map g = as.map g := by
  rw [← List.map_uncurry_zip_eq_zipWith, List.map_map]
  calc (as.zip bs).map (g ∘ Function.uncurry f) = (as.zip bs).map (g ∘ Prod.fst) := by
        apply List.map_congr_left
        intro entry _
        exact hg entry.1 entry.2
    _ = as.map g := by rw [← List.map_map, List.map_fst_zip (Nat.le_of_eq hlength)]

theorem zipWith_zipWith_of_eq (hf : ∀ a b, f (f a b) b = f a b) (as : List α) (bs : List β) :
    (as.zipWith f bs).zipWith f bs = as.zipWith f bs := by
  induction as generalizing bs with
  | nil => rfl
  | cons a as ih =>
    cases bs with
    | nil => rfl
    | cons b bs => rw [List.zipWith_cons_cons, List.zipWith_cons_cons, ih, hf]

end Linking

section AddOnce

variable {ids : List BlockId} {id source : BlockId}

theorem mem_addOnce : id ∈ addOnce ids source ↔ id ∈ ids ∨ id = source := by
  rw [addOnce]
  split
  · next h => exact ⟨.inl, fun hid => hid.elim (fun h => h) fun hid => hid ▸ h⟩
  · simp

theorem addOnce_addOnce : addOnce (addOnce ids source) source = addOnce ids source := by
  rw [addOnce, if_pos (mem_addOnce.2 (.inr rfl))]

theorem nodup_addOnce (h : ids.Nodup) : (addOnce ids source).Nodup := by
  rw [addOnce]
  split
  · exact h
  · next hsource =>
    rw [← List.concat_eq_append, List.nodup_concat]
    exact ⟨hsource, h⟩

theorem eraseDups_concat (ids : List BlockId) (id : BlockId) :
    (ids ++ [id]).eraseDups = addOnce ids.eraseDups id := by
  rw [List.eraseDups_append, addOnce, List.removeAll]
  by_cases h : id ∈ ids <;> simp [h, List.eraseDups_cons]

theorem nodup_eraseDups (ids : List BlockId) : ids.eraseDups.Nodup := by
  induction ids using List.reverseRecOn with
  | nil => exact List.nodup_nil
  | append_singleton ids id ih =>
    rw [eraseDups_concat]
    exact nodup_addOnce ih

theorem foldl_addOnce (ids : List BlockId) : ids.foldl addOnce [] = ids.eraseDups := by
  induction ids using List.reverseRecOn with
  | nil => rfl
  | append_singleton ids id ih => rw [List.foldl_concat, ih, eraseDups_concat]

theorem eraseDups_eq_self (h : ids.Nodup) : ids.eraseDups = ids := by
  induction ids using List.reverseRecOn with
  | nil => rfl
  | append_singleton ids id ih =>
    rw [← List.concat_eq_append, List.nodup_concat] at h
    obtain ⟨hid, hids⟩ := h
    rw [eraseDups_concat, ih hids, addOnce, if_neg hid]

end AddOnce

namespace FlowNode

theorem succs_eq (n : FlowNode) : n.succs = n.targets.eraseDups :=
  foldl_addOnce n.targets

theorem mem_succs {n : FlowNode} {id : BlockId} : id ∈ n.succs ↔ id ∈ n.targets := by
  rw [succs_eq, List.mem_eraseDups]

/-- The ids of the nodes that go to `id`, in order, each once. -/
def predsOf (nodes : List FlowNode) (id : BlockId) : List BlockId :=
  ((nodes.filter fun n => id ∈ n.targets).map FlowNode.id).eraseDups

theorem predsOf_concat (nodes : List FlowNode) (n : FlowNode) (id : BlockId) :
    predsOf (nodes ++ [n]) id =
      if id ∈ n.targets then addOnce (predsOf nodes id) n.id else predsOf nodes id := by
  rw [predsOf, List.filter_append, List.map_append]
  split
  · next h => simp [h, eraseDups_concat, predsOf]
  · next h => simp [h, predsOf]

theorem mem_predsOf {nodes : List FlowNode} {id p : BlockId} :
    p ∈ predsOf nodes id ↔ ∃ n ∈ nodes, id ∈ n.targets ∧ n.id = p := by
  simp [predsOf, List.mem_eraseDups, and_assoc]

/-- What is known of the predecessors of every id, once one more edge is recorded. -/
def credit (source : BlockId) (known : BlockId → List BlockId) (target : BlockId) :
    BlockId → List BlockId :=
  fun id => if id = target then addOnce (known id) source else known id

theorem foldl_credit (source : BlockId) (targets : List BlockId) (known : BlockId → List BlockId)
    (id : BlockId) : targets.foldl (credit source) known id =
      if id ∈ targets then addOnce (known id) source else known id := by
  induction targets generalizing known with
  | nil => simp
  | cons target targets ih =>
    rw [List.foldl_cons, ih, credit]
    by_cases htarget : id = target
    · by_cases hrest : id ∈ targets <;> simp [htarget, addOnce_addOnce]
    · simp [htarget]

/-- One edge after the other, what is known comes to be the predecessors. -/
theorem foldl_credit_nodes (nodes : List FlowNode) :
    nodes.foldl (fun known n => n.succs.foldl (credit n.id) known) (fun _ => []) =
      predsOf nodes := by
  funext id
  induction nodes using List.reverseRecOn with
  | nil => rfl
  | append_singleton nodes n ih =>
    rw [List.foldl_append, List.foldl_cons, List.foldl_nil, foldl_credit, ih, predsOf_concat]
    simp only [mem_succs]

/-- Gives each id what is known of it, where it stands for the first time. -/
def atFirst (known : BlockId → List BlockId) (seen : List BlockId) :
    List BlockId → List (List BlockId)
  | [] => []
  | id :: rest => (if id ∈ seen then [] else known id) :: atFirst known (id :: seen) rest

/-- The predecessors of each node in turn. Of several nodes with one id only the first has any. -/
def preds (nodes : List FlowNode) : List (List BlockId) :=
  atFirst (predsOf nodes) [] (nodes.map FlowNode.id)

theorem length_atFirst (known : BlockId → List BlockId) (seen ids : List BlockId) :
    (atFirst known seen ids).length = ids.length := by
  induction ids generalizing seen with
  | nil => rfl
  | cons id rest ih => simp [atFirst, ih]

theorem length_preds (nodes : List FlowNode) : (preds nodes).length = nodes.length := by
  simp [preds, length_atFirst]

theorem atFirst_eq_map {known : BlockId → List BlockId} {seen ids : List BlockId}
    (hids : ids.Nodup) (hseen : ∀ id ∈ ids, id ∉ seen) : atFirst known seen ids = ids.map known := by
  induction ids generalizing seen with
  | nil => rfl
  | cons id rest ih =>
    obtain ⟨hid, hrest⟩ := List.nodup_cons.1 hids
    rw [atFirst, if_neg (hseen id List.mem_cons_self), List.map_cons, ih hrest]
    intro id' hid' hmem
    rcases List.mem_cons.1 hmem with rfl | hmem
    · exact hid hid'
    · exact hseen id' (List.mem_cons_of_mem _ hid') hmem

/-- If no two nodes have one id, each has all its predecessors. -/
theorem preds_eq_map {nodes : List FlowNode} (h : (nodes.map FlowNode.id).Nodup) :
    preds nodes = nodes.map fun n => predsOf nodes n.id := by
  rw [preds, atFirst_eq_map h (by simp), List.map_map]
  rfl

theorem exists_of_mem_atFirst {known : BlockId → List BlockId} {seen ids ps : List BlockId}
    (h : ps ∈ atFirst known seen ids) : ps = [] ∨ ∃ id ∈ ids, ps = known id := by
  induction ids generalizing seen with
  | nil => cases h
  | cons id rest ih =>
    rw [atFirst, List.mem_cons] at h
    rcases h with rfl | h
    · split
      · exact .inl rfl
      · exact .inr ⟨id, List.mem_cons_self, rfl⟩
    · exact (ih h).imp_right fun ⟨id', hid', hps⟩ => ⟨id', List.mem_cons_of_mem _ hid', hps⟩

theorem mem_ids_of_mem_preds {nodes : List FlowNode} {ps : List BlockId} (hps : ps ∈ preds nodes)
    {p : BlockId} (hp : p ∈ ps) : p ∈ nodes.map FlowNode.id := by
  rcases exists_of_mem_atFirst hps with rfl | ⟨id, -, rfl⟩
  · cases hp
  · obtain ⟨n, hn, -, rfl⟩ := mem_predsOf.1 hp
    exact List.mem_map_of_mem hn

end FlowNode

namespace PredTable

open FlowNode

/-- The table has an entry for each of these ids, which says what is known of it. -/
def Holds (ids : List BlockId) (t : PredTable) (known : BlockId → List BlockId) : Prop :=
  ∀ id ∈ ids, t[id]? = some (known id)

theorem Holds.record {ids : List BlockId} {t : PredTable} {known : BlockId → List BlockId}
    (h : Holds ids t known) (source target : BlockId) :
    Holds ids (t.record source target) (credit source known target) := by
  intro id hid
  rw [PredTable.record, Std.TreeMap.getElem?_modify, credit]
  by_cases htarget : target = id
  · subst htarget
    simp [h target hid]
  · simp [htarget, Ne.symm htarget, h id hid]

theorem getElem?_foldl_insert (nodes : List FlowNode) (t : PredTable) (id : BlockId) :
    (nodes.foldl (fun t n => t.insert n.id []) t)[id]? =
      if id ∈ nodes.map FlowNode.id then some [] else t[id]? := by
  induction nodes generalizing t with
  | nil => simp
  | cons n nodes ih =>
    rw [List.foldl_cons, ih, Std.TreeMap.getElem?_insert, List.map_cons]
    by_cases hrest : id ∈ nodes.map FlowNode.id
    · simp only [hrest, List.mem_cons, or_true, if_true]
    · by_cases hid : n.id = id
      · simp [hid]
      · simp [hrest, hid, Ne.symm hid]

theorem holds_ofNodes (nodes : List FlowNode) :
    Holds (nodes.map FlowNode.id) (ofNodes nodes) (predsOf nodes) := by
  rw [← foldl_credit_nodes]
  apply List.foldl_rel
  · intro id hid
    rw [getElem?_foldl_insert, if_pos hid]
  · intro n _ t known h
    apply List.foldl_rel h
    intro target _ t known h
    exact h.record n.id target

end PredTable

namespace PredList

open FlowNode

theorem atFirst_credit_of_mem (source : BlockId) (known : BlockId → List BlockId)
    {target : BlockId} {seen : List BlockId} (htarget : target ∈ seen) (ids : List BlockId) :
    atFirst (credit source known target) seen ids = atFirst known seen ids := by
  induction ids generalizing seen with
  | nil => rfl
  | cons id rest ih =>
    rw [atFirst, atFirst, ih (List.mem_cons_of_mem _ htarget)]
    by_cases hid : id = target
    · simp [hid, htarget]
    · simp [credit, hid]

theorem record_zip_atFirst (source : BlockId) (known : BlockId → List BlockId) {target : BlockId}
    {seen : List BlockId} (htarget : target ∉ seen) (ids : List BlockId) :
    record source (ids.zip (atFirst known seen ids)) target =
      ids.zip (atFirst (credit source known target) seen ids) := by
  induction ids generalizing seen with
  | nil => rfl
  | cons id rest ih =>
    rw [atFirst, atFirst, List.zip_cons_cons, List.zip_cons_cons, record]
    split
    · next hid =>
      subst hid
      rw [atFirst_credit_of_mem source known List.mem_cons_self]
      simp [credit, htarget]
    · next hid =>
      rw [ih (by simp [htarget, Ne.symm hid])]
      simp [credit, hid]

/-- The list has an entry for each of these ids in turn, which says what is known of it where it
stands for the first time. -/
def Holds (ids : List BlockId) (l : PredList) (known : BlockId → List BlockId) : Prop :=
  l = ids.zip (atFirst known [] ids)

theorem Holds.record {ids : List BlockId} {l : PredList} {known : BlockId → List BlockId}
    (h : Holds ids l known) (source target : BlockId) :
    Holds ids (l.record source target) (credit source known target) := by
  rw [Holds, h, record_zip_atFirst source known List.not_mem_nil]

theorem zip_atFirst_nil (seen ids : List BlockId) :
    ids.zip (atFirst (fun _ => []) seen ids) = ids.map fun id => (id, []) := by
  induction ids generalizing seen with
  | nil => rfl
  | cons id rest ih => simp [atFirst, ih]

theorem holds_ofNodes (nodes : List FlowNode) :
    Holds (nodes.map FlowNode.id) (ofNodes nodes) (predsOf nodes) := by
  rw [← foldl_credit_nodes]
  apply List.foldl_rel
  · rw [Holds, zip_atFirst_nil, List.map_map]
    rfl
  · intro n _ l known h
    apply List.foldl_rel h
    intro target _ l known h
    exact h.record n.id target

end PredList

end PassEngine
