import Mathlib.Data.List.Induction
import Mathlib.Data.List.Nodup
import Mathlib.Data.List.Perm.Basic
import PassEngine.Pass.Registry

namespace PassEngine

/-- The second list is the first one in the order of a key, where elements with one key stay in the
order they had. -/
structure StablySorted {α κ : Type} [LE κ] [DecidableEq κ] (key : α → κ) (xs ys : List α) :
    Prop where
  perm : ys.Perm xs
  ordered : ys.Pairwise fun a b => key a ≤ key b
  stable : ∀ k, ys.filter (key · = k) = xs.filter (key · = k)

theorem perm_of_filter_eq {α κ : Type} [DecidableEq κ] {key : α → κ} {xs ys : List α}
    (h : ∀ k, ys.filter (key · = k) = xs.filter (key · = k)) : ys.Perm xs := by
  classical
  rw [List.perm_iff_count]
  intro a
  have hkey (zs : List α) : (zs.filter (key · = key a)).count a = zs.count a :=
    List.count_filter (p := (key · = key a)) (decide_eq_true rfl)
  rw [← hkey ys, h, hkey]

theorem filter_flatMap_filter {α κ : Type} [DecidableEq κ] {group : α → κ} {ks : List κ}
    (hks : ks.Nodup) {k : κ} (hk : k ∈ ks) (xs : List α) :
    (ks.flatMap fun k => xs.filter (group · = k)).filter (group · = k) =
      xs.filter (group · = k) := by
  have hsame : (xs.filter (group · = k)).filter (group · = k) = xs.filter (group · = k) := by
    simp [List.filter_filter]
  have hother {k' : κ} (hne : k' ≠ k) : (xs.filter (group · = k')).filter (group · = k) = [] := by
    rw [List.filter_filter, List.filter_eq_nil_iff]
    intro x _ hx
    simp only [Bool.and_eq_true, decide_eq_true_eq] at hx
    exact hne (hx.2.symm.trans hx.1)
  -- Only one group has elements of this key, and it has them all.
  rw [List.filter_flatMap]
  induction ks with
  | nil => cases hk
  | cons k' rest ih =>
    obtain ⟨hk', hrest⟩ := List.nodup_cons.1 hks
    rw [List.flatMap_cons]
    rcases List.mem_cons.1 hk with rfl | hk
    · rw [hsame, List.flatMap_eq_nil_iff.2, List.append_nil]
      intro k' hmem
      apply hother
      rintro rfl
      exact hk' hmem
    · rw [hother (by rintro rfl; exact hk' hk), List.nil_append, ih hrest hk]

structure Request where
  point : Point
  name : String
  priority : Int32
  pass : Pass

/-- The registration that comes of a request, if it is accepted. -/
def Request.record (q : Request) (seq : Nat) : Registration where
  name := q.name
  point := q.point
  priority := q.priority
  seq := seq
  pass := q.pass

namespace Registry

def request (r : Registry) (q : Request) : Except RegistryError Unit × Registry :=
  r.register q.point q.name q.priority q.pass

def serve (state : Registry × List Request) (q : Request) : Registry × List Request :=
  match state.1.request q with
  | (.ok (), r) => (r, state.2 ++ [q])
  | (.error _, r) => (r, state.2)

/-- The registry that some requests leave, and those among them that it accepted. -/
def after (requests : List Request) : Registry × List Request :=
  requests.foldl serve ({}, [])

def accepted (requests : List Request) : List Request :=
  (after requests).2

def entries (requests : List Request) : List Registration :=
  requests.mapIdx fun seq q => q.record seq

/-- All that can come of a request. -/
theorem request_cases (r : Registry) (q : Request) :
    (q.name ∈ r.records.map Registration.name ∧ r.request q = (.error ⟨q.name⟩, r)) ∨
    (q.name ∉ r.records.map Registration.name ∧ r.request q =
      (.ok (), { records := r.records ++ [q.record r.nextSeq], nextSeq := r.nextSeq + 1 })) := by
  have hany : r.records.any (·.name == q.name) = true ↔
      q.name ∈ r.records.map Registration.name := by
    simp [List.any_eq_true]
  by_cases hname : q.name ∈ r.records.map Registration.name
  · exact .inl ⟨hname, if_pos (hany.2 hname)⟩
  · exact .inr ⟨hname, if_neg (mt hany.1 hname)⟩

theorem map_name_entries (requests : List Request) :
    (entries requests).map Registration.name = requests.map Request.name := by
  apply List.ext_getElem
  · simp [entries]
  · intro i _ _
    simp [entries, Request.record]

theorem pairwise_seq_entries (requests : List Request) :
    (entries requests).Pairwise fun a b => a.seq < b.seq := by
  rw [List.pairwise_iff_getElem]
  intro i j _ _ hij
  simpa [entries, Request.record] using hij

/-- A registry that holds the registrations of these requests, with different names. -/
structure Holds (r : Registry) (done : List Request) : Prop where
  records : r.records = entries done
  nextSeq : r.nextSeq = done.length
  nodup : (done.map Request.name).Nodup

theorem Holds.serve {state : Registry × List Request} (h : state.1.Holds state.2) (q : Request) :
    (serve state q).1.Holds (serve state q).2 := by
  unfold Registry.serve
  rcases state.1.request_cases q with ⟨-, hrequest⟩ | ⟨hname, hrequest⟩
  · rw [hrequest]
    exact h
  · rw [hrequest]
    rw [h.records, map_name_entries] at hname
    refine ⟨?_, ?_, ?_⟩
    · show state.1.records ++ [q.record state.1.nextSeq] = _
      rw [entries, List.mapIdx_concat, h.records, h.nextSeq]
      rfl
    · show state.1.nextSeq + 1 = _
      rw [List.length_append, List.length_singleton, h.nextSeq]
    · show ((state.2 ++ [q]).map Request.name).Nodup
      rw [List.map_append, List.map_singleton, ← List.concat_eq_append, List.nodup_concat]
      exact ⟨hname, h.nodup⟩

/-- The registry holds what it has accepted, whatever it has refused. -/
theorem holds_after (requests : List Request) :
    (after requests).1.Holds (accepted requests) := by
  unfold accepted after
  refine List.foldlRecOn (motive := fun state => state.1.Holds state.2) requests serve ?_ ?_
  · exact ⟨rfl, rfl, List.nodup_nil⟩
  · intro state h q _
    exact h.serve q

end Registry

namespace Registration

theorem le_iff {a b : Registration} : a.le b = true ↔
    a.priority.toInt < b.priority.toInt ∨ a.priority.toInt = b.priority.toInt ∧ a.seq ≤ b.seq := by
  simp [le, Int32.lt_iff_toInt_lt, Int32.toInt_inj]

end Registration

namespace Registry

theorem pairwise_freeze (r : Registry) : r.freeze.records.Pairwise fun a b => a.le b = true := by
  apply List.pairwise_mergeSort
  · intro a b c hab hbc
    rw [Registration.le_iff] at *
    omega
  · intro a b
    rw [Bool.or_eq_true, Registration.le_iff, Registration.le_iff]
    omega

theorem eq_of_seq_eq {requests : List Request} {a b : Registration} (ha : a ∈ entries requests)
    (hb : b ∈ entries requests) (h : a.seq = b.seq) : a = b := by
  obtain ⟨i, hi, rfl⟩ := List.mem_mapIdx.1 ha
  obtain ⟨j, hj, rfl⟩ := List.mem_mapIdx.1 hb
  have hij : i = j := h
  subst hij
  rfl

/-- Frozen, the accepted registrations stand in the order of their priorities, and those with the
same one in the order in which they were accepted. -/
theorem stablySorted_freeze (requests : List Request) :
    StablySorted Registration.priority (entries (accepted requests))
      (after requests).1.freeze.records := by
  have hperm : (after requests).1.freeze.records.Perm (entries (accepted requests)) := by
    rw [← (holds_after requests).records]
    exact List.mergeSort_perm _ _
  refine ⟨hperm, (pairwise_freeze _).imp fun h => ?_, fun p => ?_⟩
  · rw [Registration.le_iff] at h
    rw [Int32.le_iff_toInt_le]
    omega
  · -- Both sides are in the order of the numbers that the registry gave.
    have hfrozen : ((after requests).1.freeze.records.filter (·.priority = p)).Pairwise
        fun a b => a.seq ≤ b.seq := by
      rw [List.pairwise_filter]
      apply (pairwise_freeze _).imp
      intro a b h ha hb
      rw [Registration.le_iff, of_decide_eq_true ha, of_decide_eq_true hb] at h
      omega
    have haccepted : ((entries (accepted requests)).filter (·.priority = p)).Pairwise
        fun a b => a.seq ≤ b.seq :=
      ((pairwise_seq_entries _).imp Nat.le_of_lt).filter _
    refine List.Perm.eq_of_pairwise ?_ hfrozen haccepted (hperm.filter _)
    intro a b ha hb hab hba
    have ha := hperm.mem_iff.1 (List.mem_of_mem_filter ha)
    exact eq_of_seq_eq ha (List.mem_of_mem_filter hb) (by omega)

end Registry

namespace Roster

def position (r : Registration) : Nat :=
  Point.pipeline.idxOf r.point

def listing (roster : Roster) : List Registration :=
  Point.pipeline.flatMap roster.boundTo

theorem position_eq_iff {r : Registration} {p : Point} :
    position r = Point.pipeline.idxOf p ↔ r.point = p :=
  List.idxOf_inj (Point.mem_pipeline _)

theorem filter_listing (roster : Roster) (p : Point) :
    roster.listing.filter (·.point = p) = roster.records.filter (·.point = p) :=
  filter_flatMap_filter (by decide) (Point.mem_pipeline p) _

theorem point_of_mem_boundTo {roster : Roster} {p : Point} {r : Registration}
    (h : r ∈ roster.boundTo p) : r.point = p :=
  eq_of_beq (List.mem_filter.1 h).2

/-- Described, the registrations stand in the order of the pipeline, and those of one point in the
order in which they run. -/
theorem stablySorted_listing (roster : Roster) :
    StablySorted position roster.records roster.listing := by
  refine ⟨perm_of_filter_eq roster.filter_listing, ?_, fun k => ?_⟩
  · have hpipeline : Point.pipeline.Pairwise fun p q =>
        Point.pipeline.idxOf p ≤ Point.pipeline.idxOf q := by
      decide
    unfold listing position
    rw [List.pairwise_flatMap]
    refine ⟨fun p _ => ?_, hpipeline.imp fun hpq a ha b hb => ?_⟩
    · apply List.pairwise_of_forall_mem_list
      intro a ha b hb
      apply Nat.le_of_eq
      rw [point_of_mem_boundTo ha, point_of_mem_boundTo hb]
    · rwa [point_of_mem_boundTo ha, point_of_mem_boundTo hb]
  -- A key beyond the pipeline has no registrations on either side.
  · by_cases hk : ∃ p, Point.pipeline.idxOf p = k
    · obtain ⟨p, rfl⟩ := hk
      simp only [position_eq_iff]
      exact roster.filter_listing p
    · have hnone (xs : List Registration) : xs.filter (position · = k) = [] := by
        rw [List.filter_eq_nil_iff]
        intro r _ hr
        exact hk ⟨r.point, of_decide_eq_true hr⟩
      rw [hnone, hnone]

def label (r : Registration) : String :=
  s!"{r.point.name}:{r.name}"

theorem describe_eq (roster : Roster) : roster.describe = roster.listing.map label := rfl

theorem name_eq_of_label_eq {a b : Registration} (h : label a = label b) : a.name = b.name := by
  have hpoint (p : Point) : p.name.toList.all (· != ':') = true := by
    cases p <;> rfl
  have hdrop (r : Registration) :
      (label r).toList.dropWhile (· != ':') = ':' :: r.name.toList := by
    have hlabel : (label r).toList = r.point.name.toList ++ ':' :: r.name.toList := by
      show (r.point.name ++ ":" ++ r.name).toList = _
      rw [String.toList_append, String.toList_append, List.append_assoc]
      rfl
    rw [hlabel, List.dropWhile_append_of_pos (List.all_eq_true.1 (hpoint r.point))]
    rfl
  have hname := congrArg (fun s => s.toList.dropWhile (· != ':')) h
  simp only [hdrop, List.cons.injEq, true_and] at hname
  exact String.toList_inj.1 hname

theorem nodup_describe {roster : Roster} (h : (roster.records.map Registration.name).Nodup) :
    roster.describe.Nodup := by
  have hnames := ((stablySorted_listing roster).perm.map Registration.name).nodup_iff.2 h
  rw [describe_eq]
  unfold List.Nodup at hnames ⊢
  rw [List.pairwise_map] at hnames ⊢
  exact hnames.imp fun hne hlabel => hne (name_eq_of_label_eq hlabel)

end Roster

end PassEngine
