import Mathlib.Logic.Relation
import PassEngine.Proofs.Dialect.CallSites
import PassEngine.Proofs.Dialect.Operands

namespace PassEngine.Dialect

namespace CallGraph

section Search

variable {next : Nat → List Nat} {goal : Nat} {visited : List Bool} {queue : List Nat}

theorem exists_search (hnext : ∀ a, ∀ b ∈ next a, b < visited.length)
    (hqueue : ∀ a ∈ queue, a < visited.length) :
    ∃ found, search next goal visited queue = some found := by
  fun_induction search next goal visited queue with
  | case1 => exact ⟨false, rfl⟩
  | case2 => exact ⟨true, rfl⟩
  | case3 visited node queue hgoal hvisited =>
    have hlt := hqueue node List.mem_cons_self
    have hge := List.getElem?_eq_none_iff.1 hvisited
    omega
  | case4 visited node queue hgoal hvisited ih =>
    exact ih hnext fun a ha => hqueue a (List.mem_cons_of_mem _ ha)
  | case5 visited node queue hgoal hvisited ih =>
    apply ih
    · simpa using hnext
    · intro a ha
      rw [List.length_set]
      rcases List.mem_append.1 ha with ha | ha
      · exact hqueue a (List.mem_cons_of_mem _ ha)
      · exact hnext node a ha

/-- Only what the queued nodes lead to is found. -/
theorem exists_path_of_search (h : search next goal visited queue = some true) :
    ∃ a ∈ queue, Relation.ReflTransGen (fun a b => b ∈ next a) a goal := by
  fun_induction search next goal visited queue with
  | case1 => cases h
  | case2 visited queue => exact ⟨goal, List.mem_cons_self, .refl⟩
  | case3 => cases h
  | case4 visited node queue hgoal hvisited ih =>
    obtain ⟨a, ha, hpath⟩ := ih h
    exact ⟨a, List.mem_cons_of_mem _ ha, hpath⟩
  | case5 visited node queue hgoal hvisited ih =>
    obtain ⟨a, ha, hpath⟩ := ih h
    rcases List.mem_append.1 ha with ha | ha
    · exact ⟨a, List.mem_cons_of_mem _ ha, hpath⟩
    · exact ⟨node, List.mem_cons_self, .head ha hpath⟩

/-- What a search knows of the nodes that it has visited: none is the goal, and what they lead to
has been visited or is queued. -/
def Explored (next : Nat → List Nat) (goal : Nat) (visited : List Bool) (queue : List Nat) : Prop :=
  ∀ a, visited[a]? = some true → a ≠ goal ∧ ∀ b ∈ next a, visited[b]? = some true ∨ b ∈ queue

theorem Explored.skip {node : Nat} (h : Explored next goal visited (node :: queue))
    (hvisited : visited[node]? = some true) : Explored next goal visited queue := by
  intro a ha
  refine ⟨(h a ha).1, fun b hb => ?_⟩
  rcases (h a ha).2 b hb with hb | hb
  · exact .inl hb
  · rcases List.mem_cons.1 hb with rfl | hb
    · exact .inl hvisited
    · exact .inr hb

theorem getElem?_set_eq_some_true {node a : Nat} (hvisited : visited[node]? = some false) :
    (visited.set node true)[a]? = some true ↔ a = node ∨ visited[a]? = some true := by
  have hlt := (List.getElem?_eq_some_iff.1 hvisited).1
  by_cases ha : node = a
  · subst ha
    simp [hlt]
  · simp [ha, Ne.symm ha]

theorem Explored.visit {node : Nat} (h : Explored next goal visited (node :: queue))
    (hgoal : node ≠ goal) (hvisited : visited[node]? = some false) :
    Explored next goal (visited.set node true) (queue ++ next node) := by
  intro a ha
  rcases (getElem?_set_eq_some_true hvisited).1 ha with rfl | ha
  · exact ⟨hgoal, fun b hb => .inr (List.mem_append_right _ hb)⟩
  · refine ⟨(h a ha).1, fun b hb => ?_⟩
    rw [getElem?_set_eq_some_true hvisited, List.mem_append]
    rcases (h a ha).2 b hb with hb | hb
    · exact .inl (.inr hb)
    · rcases List.mem_cons.1 hb with rfl | hb
      · exact .inl (.inl rfl)
      · exact .inr (.inl hb)

/-- If nothing is queued any more, what was visited is closed under going on. -/
theorem Explored.not_path (h : Explored next goal visited []) {a : Nat}
    (ha : visited[a]? = some true) : ¬Relation.ReflTransGen (fun a b => b ∈ next a) a goal := by
  intro hpath
  induction hpath using Relation.ReflTransGen.head_induction_on with
  | refl => exact (h goal ha).1 rfl
  | head hstep _ ih =>
    rcases (h _ ha).2 _ hstep with hb | hb
    · exact ih hb
    · cases hb

/-- A search that ends without success has seen all that the queued nodes lead to. -/
theorem not_path_of_search (hexplored : Explored next goal visited queue)
    (h : search next goal visited queue = some false) {a : Nat}
    (ha : visited[a]? = some true ∨ a ∈ queue) :
    ¬Relation.ReflTransGen (fun a b => b ∈ next a) a goal := by
  fun_induction search next goal visited queue with
  | case1 visited =>
    rcases ha with ha | ha
    · exact hexplored.not_path ha
    · cases ha
  | case2 => cases h
  | case3 => cases h
  | case4 visited node queue hgoal hvisited ih =>
    apply ih (hexplored.skip hvisited) h
    rcases ha with ha | ha
    · exact .inl ha
    · rcases List.mem_cons.1 ha with rfl | ha
      · exact .inl hvisited
      · exact .inr ha
  -- A node that is visited now leaves the queue and gets its mark.
  | case5 visited node queue hgoal hvisited ih =>
    apply ih (hexplored.visit hgoal hvisited) h
    rw [getElem?_set_eq_some_true hvisited, List.mem_append]
    rcases ha with ha | ha
    · exact .inl (.inr ha)
    · rcases List.mem_cons.1 ha with rfl | ha
      · exact .inl (.inl rfl)
      · exact .inr (.inl ha)

end Search

theorem mem_insertAscending {n k : Nat} {ks : List Nat} :
    k ∈ insertAscending n ks ↔ k = n ∨ k ∈ ks := by
  induction ks with
  | nil => simp [insertAscending]
  | cons j ks ih =>
    rw [insertAscending]
    split
    · rw [List.mem_cons]
    · split
      · next heq => simp [heq]
      · rw [List.mem_cons, ih, List.mem_cons]
        exact or_left_comm

theorem mem_callees_iff {g : CallGraph} {f k : Nat} :
    k ∈ g.callees f ↔ ∃ site ∈ g.sitesIn f, site.callee = k := by
  rw [callees]
  induction g.sitesIn f with
  | nil => simp
  | cons site sites ih =>
    rw [List.foldr_cons, mem_insertAscending, ih, List.exists_mem_cons_iff, eq_comm]

/-- If only nodes of the graph are called, the search has an answer, and it says whether one or more
calls in a row lead to the goal. -/
theorem exists_reaches? {g : CallGraph} (hsize : ∀ a, ∀ b ∈ g.callees a, b < g.size)
    (start goal : Nat) : ∃ found, g.reaches? start goal = some found ∧
      (found = true ↔ Relation.TransGen (fun a b => b ∈ g.callees a) start goal) := by
  have hunvisited : Explored g.callees goal (List.replicate g.size false) (g.callees start) := by
    intro a ha
    simp [List.getElem?_replicate] at ha
  obtain ⟨found, hfound⟩ : ∃ found, g.reaches? start goal = some found := by
    apply exists_search
    · simpa using hsize
    · simpa using hsize start
  refine ⟨found, hfound, ?_⟩
  rw [Relation.TransGen.head'_iff]
  cases found with
  | true => simpa using exists_path_of_search hfound
  | false =>
    simp only [Bool.false_eq_true, false_iff]
    rintro ⟨a, ha, hpath⟩
    exact not_path_of_search hunvisited hfound (.inr ha) hpath

end CallGraph

namespace Module

def Calls (m : Module) (f g : Nat) : Prop :=
  ∃ function, m.functions[f]? = some function ∧
    ∃ o ∈ function.ops, ∃ c, o.callee? = some c ∧ m.symbolTable.get? c = some g

variable {m : Module} {f g : Nat}

theorem lt_length_of_calls (h : m.Calls f g) : g < m.functions.length := by
  obtain ⟨_, _, _, _, _, _, hcallee⟩ := h
  exact lt_length_of_symbolTable_get? hcallee

theorem mem_callees_build : g ∈ (CallGraph.build m).callees f ↔ m.Calls f g := by
  rw [CallGraph.mem_callees_iff]
  cases hf : m.functions[f]? with
  | none => simp [CallGraph.sitesIn, CallGraph.sites_build, Calls, hf]
  | some function =>
    rw [CallGraph.sitesIn_build hf]
    constructor
    · rintro ⟨site, hsite, rfl⟩
      obtain ⟨-, o, c, ho, hc, hcallee⟩ := CallGraph.mem_functionSites_iff.1 hsite
      exact ⟨function, hf, o, Function.mem_ops_of_op? ho, c, hc, hcallee⟩
    · rintro ⟨function', hf', o, ho, c, hc, hcallee⟩
      rw [hf] at hf'
      cases hf'
      obtain ⟨i, j, hij⟩ := Function.exists_op?_of_mem_ops ho
      exact ⟨⟨f, i, j, g⟩, CallGraph.mem_functionSites_iff.2 ⟨rfl, o, c, hij, hc, hcallee⟩, rfl⟩

theorem lt_size_of_mem_callees_build (h : g ∈ (CallGraph.build m).callees f) :
    g < (CallGraph.build m).size := by
  have hsize : (CallGraph.build m).size = m.functions.length := by
    simp [CallGraph.size, CallGraph.sites_build]
  rw [hsize]
  exact lt_length_of_calls (mem_callees_build.1 h)

theorem reaches?_build (f g : Nat) : (CallGraph.build m).reaches? f g =
      some ((CallGraph.build m).reaches f g) ∧
    ((CallGraph.build m).reaches f g = true ↔ Relation.TransGen m.Calls f g) := by
  have hcalls : (fun a b => b ∈ (CallGraph.build m).callees a) = m.Calls :=
    funext fun a => funext fun b => propext mem_callees_build
  obtain ⟨found, hfound, hpath⟩ :=
    CallGraph.exists_reaches? (fun _ _ => lt_size_of_mem_callees_build) f g
  rw [CallGraph.reaches, hfound, Option.getD_some, hpath, hcalls]
  exact ⟨rfl, Iff.rfl⟩

theorem reaches_build_iff :
    (CallGraph.build m).reaches f g = true ↔ Relation.TransGen m.Calls f g :=
  (reaches?_build f g).2

/-- A position is the last one where a function of this name is defined. -/
def DefinedLast (m : Module) (name : String) (g : Nat) : Prop :=
  (∃ function, m.functions[g]? = some function ∧ function.symbol = name) ∧
    ∀ i function, g < i → m.functions[i]? = some function → function.symbol ≠ name

theorem symbolTable_get?_iff {name : String} :
    m.symbolTable.get? name = some g ↔ m.DefinedLast name g := by
  rw [symbolTable_eq, NameTable.get?_ofList_zipIdx, DefinedLast, symbols]
  simp only [List.getElem?_map, Option.map_eq_some_iff, ne_eq, not_exists, not_and]
  exact and_congr_right' ⟨fun h i function hi => h i hi function,
    fun h i hi function => h i function hi⟩

/-- One function has a direct call by the name of which the other is the last definition. -/
def CallsDirectly (m : Module) (f g : Nat) : Prop :=
  ∃ function, m.functions[f]? = some function ∧
    ∃ b ∈ function.blocks, ∃ o ∈ b.ops, ∃ name args known,
      o.kind = .call name args known ∧ m.DefinedLast name g

theorem calls_iff_callsDirectly : m.Calls f g ↔ m.CallsDirectly f g := by
  simp only [Calls, Function.ops, List.mem_flatMap, Op.callee?, OpKind.callee?_eq_some_iff,
    symbolTable_get?_iff]
  constructor
  · rintro ⟨function, hf, o, ⟨b, hb, ho⟩, name, ⟨args, known, hkind⟩, hlast⟩
    exact ⟨function, hf, b, hb, o, ho, name, args, known, hkind, hlast⟩
  · rintro ⟨function, hf, b, hb, o, ho, name, args, known, hkind, hlast⟩
    exact ⟨function, hf, o, ⟨b, hb, ho⟩, name, ⟨args, known, hkind⟩, hlast⟩

/-- Between any two positions, also of no function, the search of a module's calls has an answer:
it never looks for a mark that is not there. The answer is that the goal is reached exactly if one
or more direct calls in a row lead there. So a function is recursive exactly if it is on a cycle. -/
theorem reaches_exact (m : Module) (start goal : Nat) :
    (CallGraph.build m).reaches? start goal = some ((CallGraph.build m).reaches start goal) ∧
    ((CallGraph.build m).reaches start goal = true ↔
      Relation.TransGen m.CallsDirectly start goal) ∧
    ((CallGraph.build m).isRecursive start = true ↔
      Relation.TransGen m.CallsDirectly start start) := by
  have hcalls : m.Calls = m.CallsDirectly :=
    funext fun a => funext fun b => propext calls_iff_callsDirectly
  refine ⟨(reaches?_build start goal).1, ?_, ?_⟩
  · rw [reaches_build_iff, hcalls]
  · rw [CallGraph.isRecursive, reaches_build_iff, hcalls]

end Module

end PassEngine.Dialect
