import Mathlib.Data.List.Induction
import PassEngine.Pass.Batch
import PassEngine.Proofs.Dialect.WellFormed

namespace PassEngine

open Dialect (Module)

theorem Dialect.Module.verify_of_fault?_eq_none {m : Module} (h : m.fault? = none) :
    m.verify = .ok () := by
  rw [Module.verify, h]

theorem Dialect.Module.verify_of_fault?_eq_some {m : Module} {e : Dialect.VerifyError}
    (h : m.fault? = some e) : m.verify = .error e := by
  rw [Module.verify, h]

namespace ActivePass

def left (a : ActivePass) (point : Point) (shown : Module) : Module :=
  (a.pass.optimize a.visits point shown).2

/-- How a pass can fail on the module it is shown: its gate or its work breaks off, it gives an
error of its own, it hides a change, or it leaves the module invalid. The last argument tells
whether it came to run. -/
inductive Fails (a : ActivePass) (point : Point) (shown : Module) : PassFault → Bool → Prop
  | gateCrashed {c : Crash} (hgate : a.pass.gate a.visits point shown = .error c) :
    Fails a point shown (.gateCrashed c) false
  | crashed {c : Crash} (hgate : a.pass.gate a.visits point shown = .ok true)
    (h : (a.pass.optimize a.visits point shown).1 = .crashed c) :
    Fails a point shown (.crashed c) true
  | error {e : PassError} (hgate : a.pass.gate a.visits point shown = .ok true)
    (h : (a.pass.optimize a.visits point shown).1 = .failed e) :
    Fails a point shown (.error e) true
  | hiddenChange (hgate : a.pass.gate a.visits point shown = .ok true)
    (h : (a.pass.optimize a.visits point shown).1 = .noChange) (hne : a.left point shown ≠ shown) :
    Fails a point shown .hiddenChange true
  | invalid {e : Dialect.VerifyError} (hgate : a.pass.gate a.visits point shown = .ok true)
    (h : (a.pass.optimize a.visits point shown).1 = .changed)
    (he : (a.left point shown).verify = .error e) : Fails a point shown (.error (.invalid e)) true

theorem turn_cases (a : ActivePass) (point : Point) (m : Module) :
    (∃ fault ran, a.Fails point m fault ran ∧
      a.turn point m = (.failed fault, a.visited point m ran)) ∨
    (a.pass.gate a.visits point m = .ok false ∧
      a.turn point m = (.unchanged, a.visited point m false)) ∨
    (a.pass.gate a.visits point m = .ok true ∧
      (a.pass.optimize a.visits point m).1 = .noChange ∧ a.left point m = m ∧
      a.turn point m = (.unchanged, a.visited point m true)) ∨
    (a.pass.gate a.visits point m = .ok true ∧
      (a.pass.optimize a.visits point m).1 = .changed ∧ (a.left point m).verify = .ok () ∧
      a.turn point m = (.changed (a.left point m), a.visited point m true)) := by
  cases hgate : a.pass.gate a.visits point m with
  | error c => exact .inl ⟨_, false, .gateCrashed hgate, by simp only [turn, hgate]⟩
  | ok run =>
    cases run with
    | false => exact .inr (.inl ⟨rfl, by simp only [turn, hgate]⟩)
    | true =>
      -- What the scheduler makes of a pass that ran is a matter of its report and of what it left.
      have hturn : a.turn point m = (judge m (a.pass.optimize a.visits point m).1 (a.left point m),
          a.visited point m true) := by
        simp only [turn, hgate, left]
      cases hreport : (a.pass.optimize a.visits point m).1 with
      | noChange =>
        rw [hreport, judge] at hturn
        by_cases hleft : a.left point m = m
        · rw [if_pos hleft] at hturn
          exact .inr (.inr (.inl ⟨rfl, rfl, hleft, hturn⟩))
        · rw [if_neg hleft] at hturn
          exact .inl ⟨_, true, .hiddenChange hgate hreport hleft, hturn⟩
      | changed =>
        rw [hreport, judge] at hturn
        cases hfault : (a.left point m).fault? with
        | none =>
          simp only [hfault] at hturn
          exact .inr (.inr (.inr ⟨rfl, rfl, Module.verify_of_fault?_eq_none hfault, hturn⟩))
        | some e =>
          simp only [hfault] at hturn
          have he := Module.verify_of_fault?_eq_some hfault
          exact .inl ⟨_, true, .invalid hgate hreport he, hturn⟩
      | failed e =>
        rw [hreport] at hturn
        exact .inl ⟨_, true, .error hgate hreport, hturn⟩
      | crashed c =>
        rw [hreport] at hturn
        exact .inl ⟨_, true, .crashed hgate hreport, hturn⟩

end ActivePass

/-- The rules by which a batch goes on from pass to pass: from the module as it stands, and whether
it was edited before, to the outcome and the passes with the turns they had. -/
inductive Batch (point : Point) :
    Bool → Module → List ActivePass → BatchOutcome → List ActivePass → Prop
  | unedited {m : Module} : Batch point false m [] .noChange []
  | edited {m : Module} : Batch point true m [] (.changed m) []
  | elsewhere {edited m a rest outcome rest'} (ha : a.point ≠ point)
    (h : Batch point edited m rest outcome rest') :
    Batch point edited m (a :: rest) outcome (a :: rest')
  | declined {edited m a rest outcome rest'} (ha : a.point = point)
    (hgate : a.pass.gate a.visits point m = .ok false)
    (h : Batch point edited m rest outcome rest') :
    Batch point edited m (a :: rest) outcome (a.visited point m false :: rest')
  | unchanged {edited m a rest outcome rest'} (ha : a.point = point)
    (hgate : a.pass.gate a.visits point m = .ok true)
    (hreport : (a.pass.optimize a.visits point m).1 = .noChange) (hleft : a.left point m = m)
    (h : Batch point edited m rest outcome rest') :
    Batch point edited m (a :: rest) outcome (a.visited point m true :: rest')
  | changed {edited m a rest outcome rest'} (ha : a.point = point)
    (hgate : a.pass.gate a.visits point m = .ok true)
    (hreport : (a.pass.optimize a.visits point m).1 = .changed)
    (hverify : (a.left point m).verify = .ok ())
    (h : Batch point true (a.left point m) rest outcome rest') :
    Batch point edited m (a :: rest) outcome (a.visited point m true :: rest')
  | failed {edited m a rest fault ran} (ha : a.point = point) (h : a.Fails point m fault ran) :
    Batch point edited m (a :: rest) (.failed a.pass.name fault) (a.visited point m ran :: rest)

theorem batch_runBatch (point : Point) (edited : Bool) (m : Module) (passes : List ActivePass) :
    Batch point edited m passes (runBatch point edited m passes).1
      (runBatch point edited m passes).2 := by
  induction passes generalizing edited m with
  | nil => cases edited <;> constructor
  | cons a rest ih =>
    rw [runBatch]
    by_cases ha : a.point = point
    · rw [if_pos ha]
      rcases a.turn_cases point m with ⟨fault, ran, hfails, hturn⟩ | ⟨hgate, hturn⟩ |
        ⟨hgate, hreport, hleft, hturn⟩ | ⟨hgate, hreport, hverify, hturn⟩
      · rw [hturn]
        exact .failed ha hfails
      · rw [hturn]
        exact .declined ha hgate (ih edited m)
      · rw [hturn]
        exact .unchanged ha hgate hreport hleft (ih edited m)
      · rw [hturn]
        exact .changed ha hgate hreport hverify (ih true _)
    · rw [if_neg ha]
      exact .elsewhere ha (ih edited m)

theorem batch_of_forall_ne {point : Point} {m : Module} {passes : List ActivePass}
    (h : ∀ a ∈ passes, a.point ≠ point) : Batch point false m passes .noChange passes := by
  induction passes with
  | nil => exact .unedited
  | cons a rest ih =>
    obtain ⟨ha, hrest⟩ := List.forall_mem_cons.1 h
    exact .elsewhere ha (ih hrest)

namespace ActivePass

variable {a : ActivePass} {point : Point} {shown shown' : Module} {ran ran' : Bool}

theorem visited_ne : a.visited point shown ran ≠ a := by
  intro h
  have hlength := congrArg (fun b : ActivePass => b.visits.length) h
  simp [visited] at hlength

theorem visited_inj :
    a.visited point shown ran = a.visited point shown' ran' ↔ shown = shown' ∧ ran = ran' := by
  simp [visited]

theorem not_fails_of_declined (hgate : a.pass.gate a.visits point shown = .ok false)
    {fault : PassFault} : ¬a.Fails point shown fault ran := by
  rintro (hcrash | hrun | hrun | hrun | hrun) <;> simp_all

theorem not_fails_of_unchanged (hgate : a.pass.gate a.visits point shown = .ok true)
    (hreport : (a.pass.optimize a.visits point shown).1 = .noChange)
    (hleft : a.left point shown = shown) {fault : PassFault} : ¬a.Fails point shown fault ran := by
  rintro (hcrash | hrun | hrun | hrun | hrun) <;> simp_all

theorem not_fails_of_changed (hgate : a.pass.gate a.visits point shown = .ok true)
    (hreport : (a.pass.optimize a.visits point shown).1 = .changed)
    (hverify : (a.left point shown).verify = .ok ()) {fault : PassFault} :
    ¬a.Fails point shown fault ran := by
  rintro (hcrash | hrun | hrun | hrun | hrun) <;> simp_all

end ActivePass

/-- Between two states of the passes, the one at position `i` had a turn: it was shown a module, and
ran on it or not. -/
def HadTurn (before after : List ActivePass) (point : Point) (i : Nat) (a : ActivePass)
    (shown : Module) (ran : Bool) : Prop :=
  before[i]? = some a ∧ after[i]? = some (a.visited point shown ran)

def NoneRan (before after : List ActivePass) (point : Point) : Prop :=
  ∀ i a shown, ¬HadTurn before after point i a shown true

def LastLeft (before after : List ActivePass) (point : Point) (m : Module) : Prop :=
  ∃ i a shown, HadTurn before after point i a shown true ∧ m = a.left point shown ∧
    ∀ j > i, ∀ b shown', ¬HadTurn before after point j b shown' true

/-- A pass of this name had its turn and failed in it, none before it failed, and none after it had
a turn. -/
def FirstFailed (before after : List ActivePass) (point : Point) (name : String)
    (fault : PassFault) : Prop :=
  ∃ i a shown ran, HadTurn before after point i a shown ran ∧ a.pass.name = name ∧
    a.Fails point shown fault ran ∧
    (∀ j < i, ∀ b shown' ran', HadTurn before after point j b shown' ran' →
      ∀ fault', ¬b.Fails point shown' fault' ran') ∧
    ∀ j > i, after[j]? = before[j]?

section HadTurn

variable {point : Point} {x y a : ActivePass} {xs ys : List ActivePass} {m shown : Module}
  {ran : Bool} {i : Nat}

@[simp]
theorem hadTurn_succ :
    HadTurn (x :: xs) (y :: ys) point (i + 1) a shown ran ↔ HadTurn xs ys point i a shown ran :=
  Iff.rfl

@[simp]
theorem hadTurn_zero :
    HadTurn (x :: xs) (y :: ys) point 0 a shown ran ↔ x = a ∧ y = a.visited point shown ran := by
  simp [HadTurn]

theorem NoneRan.cons (h : NoneRan xs ys point) (hxy : ∀ shown, y ≠ x.visited point shown true) :
    NoneRan (x :: xs) (y :: ys) point := by
  intro i a shown
  cases i with
  | zero =>
    rw [hadTurn_zero]
    rintro ⟨rfl, hy⟩
    exact hxy shown hy
  | succ i => exact h i a shown

theorem LastLeft.cons (h : LastLeft xs ys point m) : LastLeft (x :: xs) (y :: ys) point m := by
  obtain ⟨i, a, shown, hi, hleft, hlast⟩ := h
  refine ⟨i + 1, a, shown, hadTurn_succ.2 hi, hleft, fun j hj => ?_⟩
  obtain ⟨j, rfl⟩ := Nat.exists_eq_add_one_of_ne_zero (by omega : j ≠ 0)
  simpa using hlast j (by omega)

theorem NoneRan.lastLeft (h : NoneRan xs ys point) :
    LastLeft (a :: xs) (a.visited point shown true :: ys) point (a.left point shown) := by
  refine ⟨0, a, shown, hadTurn_zero.2 ⟨rfl, rfl⟩, rfl, fun j hj => ?_⟩
  obtain ⟨j, rfl⟩ := Nat.exists_eq_add_one_of_ne_zero (by omega : j ≠ 0)
  simpa using h j

theorem FirstFailed.cons {name : String} {fault : PassFault}
    (h : FirstFailed xs ys point name fault)
    (hxy : ∀ shown ran, y = x.visited point shown ran → ∀ fault, ¬x.Fails point shown fault ran) :
    FirstFailed (x :: xs) (y :: ys) point name fault := by
  obtain ⟨i, a, shown, ran, hi, hname, hfails, hbefore, hafter⟩ := h
  refine ⟨i + 1, a, shown, ran, hadTurn_succ.2 hi, hname, hfails, fun j hj b shown' ran' hb => ?_,
    fun j hj => ?_⟩
  · cases j with
    | zero =>
      obtain ⟨rfl, hy⟩ := hadTurn_zero.1 hb
      exact hxy shown' ran' hy
    | succ j => exact hbefore j (by omega) b shown' ran' hb
  · obtain ⟨j, rfl⟩ := Nat.exists_eq_add_one_of_ne_zero (by omega : j ≠ 0)
    simpa using hafter j (by omega)

end HadTurn

namespace Batch

variable {point : Point} {edited : Bool} {m m' : Module} {passes passes' : List ActivePass}
  {outcome : BatchOutcome}

/-- Every module that a pass is shown is valid, if the first one is. -/
theorem verify_of_mem_visits (h : Batch point edited m passes outcome passes')
    (hm : m.verify = .ok ())
    (hpasses : ∀ a ∈ passes, ∀ v ∈ a.visits, v.module.verify = .ok ()) :
    ∀ a ∈ passes', ∀ v ∈ a.visits, v.module.verify = .ok () := by
  have hvisited {m : Module} {a : ActivePass} {ran : Bool} (hm : m.verify = .ok ())
      (ha : ∀ v ∈ a.visits, v.module.verify = .ok ()) :
      ∀ v ∈ (a.visited point m ran).visits, v.module.verify = .ok () :=
    List.forall_mem_cons.2 ⟨hm, ha⟩
  induction h with
  | unedited | edited => exact hpasses
  | elsewhere _ _ ih =>
    obtain ⟨ha, hrest⟩ := List.forall_mem_cons.1 hpasses
    exact List.forall_mem_cons.2 ⟨ha, ih hm hrest⟩
  | declined _ _ _ ih | unchanged _ _ _ _ _ ih =>
    obtain ⟨ha, hrest⟩ := List.forall_mem_cons.1 hpasses
    exact List.forall_mem_cons.2 ⟨hvisited hm ha, ih hm hrest⟩
  -- Only here the module passed on is another one, and it has just been verified.
  | changed _ _ _ hverify _ ih =>
    obtain ⟨ha, hrest⟩ := List.forall_mem_cons.1 hpasses
    exact List.forall_mem_cons.2 ⟨hvisited hm ha, ih hverify hrest⟩
  | failed =>
    obtain ⟨ha, hrest⟩ := List.forall_mem_cons.1 hpasses
    exact List.forall_mem_cons.2 ⟨hvisited hm ha, hrest⟩

/-- The module of a batch that changed it is valid, and is what the last pass to run left behind.
If none ran, it was changed before. -/
theorem of_changed (h : Batch point edited m passes (.changed m') passes')
    (hm : m.verify = .ok ()) :
    m'.verify = .ok () ∧ (LastLeft passes passes' point m' ∨
      edited = true ∧ m' = m ∧ NoneRan passes passes' point) := by
  generalize ho : BatchOutcome.changed m' = outcome at h
  induction h with
  | unedited | failed => cases ho
  | edited =>
    cases ho
    exact ⟨hm, .inr ⟨rfl, rfl, fun i a shown h => by cases h.1⟩⟩
  | elsewhere _ _ ih =>
    obtain ⟨hm', hlast | ⟨hedited, heq, hnone⟩⟩ := ih hm ho
    · exact ⟨hm', .inl hlast.cons⟩
    · exact ⟨hm', .inr ⟨hedited, heq, hnone.cons fun shown => ActivePass.visited_ne.symm⟩⟩
  | declined _ _ _ ih =>
    obtain ⟨hm', hlast | ⟨hedited, heq, hnone⟩⟩ := ih hm ho
    · exact ⟨hm', .inl hlast.cons⟩
    · exact ⟨hm', .inr ⟨hedited, heq, hnone.cons fun shown => by simp [ActivePass.visited_inj]⟩⟩
  -- A pass that ran is the last one to do so, unless one after it ran.
  | unchanged _ _ _ hleft _ ih =>
    obtain ⟨hm', hlast | ⟨-, heq, hnone⟩⟩ := ih hm ho
    · exact ⟨hm', .inl hlast.cons⟩
    · exact ⟨hm', .inl (heq.trans hleft.symm ▸ hnone.lastLeft)⟩
  | changed _ _ _ hverify _ ih =>
    obtain ⟨hm', hlast | ⟨-, heq, hnone⟩⟩ := ih hverify ho
    · exact ⟨hm', .inl hlast.cons⟩
    · exact ⟨hm', .inl (heq ▸ hnone.lastLeft)⟩

/-- In a batch without a change every pass that ran left the module as it was. -/
theorem of_noChange (h : Batch point edited m passes .noChange passes') :
    edited = false ∧ ∀ i a shown, HadTurn passes passes' point i a shown true →
      a.left point shown = m := by
  generalize ho : BatchOutcome.noChange = outcome at h
  induction h with
  | edited | failed => cases ho
  | unedited => exact ⟨rfl, fun i a shown h => by cases h.1⟩
  | elsewhere _ _ ih =>
    obtain ⟨hedited, hrest⟩ := ih ho
    refine ⟨hedited, fun i b shown h => ?_⟩
    cases i with
    | zero =>
      obtain ⟨rfl, hb⟩ := hadTurn_zero.1 h
      exact absurd hb.symm ActivePass.visited_ne
    | succ i => exact hrest i b shown h
  | declined _ _ _ ih =>
    obtain ⟨hedited, hrest⟩ := ih ho
    refine ⟨hedited, fun i b shown h => ?_⟩
    cases i with
    | zero =>
      obtain ⟨rfl, hb⟩ := hadTurn_zero.1 h
      exact absurd (ActivePass.visited_inj.1 hb).2 Bool.false_ne_true
    | succ i => exact hrest i b shown h
  | unchanged _ _ _ hleft _ ih =>
    obtain ⟨hedited, hrest⟩ := ih ho
    refine ⟨hedited, fun i b shown h => ?_⟩
    cases i with
    | zero =>
      obtain ⟨rfl, hb⟩ := hadTurn_zero.1 h
      obtain ⟨rfl, -⟩ := ActivePass.visited_inj.1 hb
      exact hleft
    | succ i => exact hrest i b shown h
  -- After a change the batch counts as edited to its end.
  | changed _ _ _ _ _ ih => cases (ih ho).1

theorem of_failed {name : String} {fault : PassFault}
    (h : Batch point edited m passes (.failed name fault) passes') :
    FirstFailed passes passes' point name fault := by
  generalize ho : BatchOutcome.failed name fault = outcome at h
  induction h with
  | unedited | edited => cases ho
  | elsewhere _ _ ih =>
    exact (ih ho).cons fun _ _ hy => absurd hy.symm ActivePass.visited_ne
  | declined _ hgate _ ih =>
    refine (ih ho).cons fun shown ran hy fault => ?_
    obtain ⟨rfl, -⟩ := ActivePass.visited_inj.1 hy
    exact ActivePass.not_fails_of_declined hgate
  | unchanged _ hgate hreport hleft _ ih =>
    refine (ih ho).cons fun shown ran hy fault => ?_
    obtain ⟨rfl, -⟩ := ActivePass.visited_inj.1 hy
    exact ActivePass.not_fails_of_unchanged hgate hreport hleft
  | changed _ hgate hreport hverify _ ih =>
    refine (ih ho).cons fun shown ran hy fault => ?_
    obtain ⟨rfl, -⟩ := ActivePass.visited_inj.1 hy
    exact ActivePass.not_fails_of_changed hgate hreport hverify
  -- The passes after the one that failed are as they were.
  | @failed _ m a _ _ ran _ hfails =>
    cases ho
    refine ⟨0, a, m, ran, hadTurn_zero.2 ⟨rfl, rfl⟩, rfl, hfails, fun j hj => by omega,
      fun j hj => ?_⟩
    obtain ⟨j, rfl⟩ := Nat.exists_eq_add_one_of_ne_zero (by omega : j ≠ 0)
    rfl

end Batch

namespace Scheduler

theorem dispatch_cases (s : Scheduler) (point : Point) (m : Module) :
    (s.state = .aborted ∧ s.dispatch point m = (.error .aborted, s)) ∨
    (s.state ≠ .aborted ∧ ∃ e, m.verify = .error e ∧
      s.dispatch point m = (.error (.malformedInput point e), { s with state := .idle })) ∨
    (s.state ≠ .aborted ∧ m.verify = .ok () ∧ ∃ outcome passes,
      Batch point false m s.passes outcome passes ∧
      s.dispatch point m = (.ok outcome, { passes, state := .idle })) := by
  by_cases haborted : s.state = .aborted
  · exact .inl ⟨haborted, by rw [dispatch, if_pos haborted]⟩
  have hdispatch : s.dispatch point m = (s.enter (.atPoint point)).examine point m := by
    rw [dispatch, if_neg haborted]
  cases hfault : m.fault? with
  | some e =>
    refine .inr (.inl ⟨haborted, e, Module.verify_of_fault?_eq_some hfault, ?_⟩)
    rw [hdispatch, examine, hfault]
    rfl
  | none =>
    refine .inr (.inr ⟨haborted, Module.verify_of_fault?_eq_none hfault, ?_⟩)
    rw [hdispatch, examine, hfault]
    by_cases hbound : s.passes.any (·.point = point) = true
    · exact ⟨_, _, batch_runBatch point false m s.passes, if_pos hbound⟩
    · refine ⟨_, s.passes, batch_of_forall_ne fun a ha hpoint => hbound ?_, if_neg hbound⟩
      exact List.any_eq_true.2 ⟨a, ha, decide_eq_true hpoint⟩

/-- A dispatch that comes to an outcome ran a batch on a valid module. -/
theorem batch_of_dispatch {s : Scheduler} {point : Point} {m : Module} {outcome : BatchOutcome}
    (h : (s.dispatch point m).1 = .ok outcome) : m.verify = .ok () ∧
      Batch point false m s.passes outcome (s.dispatch point m).2.passes := by
  rcases s.dispatch_cases point m with ⟨-, heq⟩ | ⟨-, e, -, heq⟩ |
    ⟨-, hm, outcome', passes, hbatch, heq⟩
  · rw [heq] at h
    cases h
  · rw [heq] at h
    cases h
  · rw [heq] at h ⊢
    cases h
    exact ⟨hm, hbatch⟩

inductive Command where
  | dispatch (point : Point) (m : Module)
  | abort
  deriving DecidableEq

def obey (s : Scheduler) : Command → Scheduler
  | .dispatch point m => (s.dispatch point m).2
  | .abort => s.abort

def after (s : Scheduler) (commands : List Command) : Scheduler :=
  commands.foldl obey s

/-- No pass was ever shown an invalid module. -/
def Guarded (s : Scheduler) : Prop :=
  ∀ a ∈ s.passes, ∀ v ∈ a.visits, v.module.verify = .ok ()

theorem guarded_dispatch {s : Scheduler} (h : s.Guarded) (point : Point) (m : Module) :
    (s.dispatch point m).2.Guarded := by
  rcases s.dispatch_cases point m with ⟨-, heq⟩ | ⟨-, e, -, heq⟩ |
    ⟨-, hm, outcome, passes, hbatch, heq⟩
  · rw [heq]
    exact h
  · rw [heq]
    exact h
  · rw [heq]
    exact hbatch.verify_of_mem_visits hm h

theorem guarded_after (roster : Roster) (commands : List Command) :
    ((ofRoster roster).after commands).Guarded := by
  refine List.foldlRecOn commands obey ?_ fun s h command _ => ?_
  · intro a ha v hv
    obtain ⟨r, -, rfl⟩ := List.mem_map.1 ha
    cases hv
  · cases command with
    | dispatch point m => exact guarded_dispatch h point m
    | abort => exact h

theorem state_dispatch {s : Scheduler} (h : s.state = .idle) (point : Point) (m : Module) :
    (s.dispatch point m).2.state = .idle := by
  rcases s.dispatch_cases point m with ⟨-, heq⟩ | ⟨-, e, -, heq⟩ | ⟨-, -, outcome, passes, -, heq⟩
  · rw [heq, h]
  · rw [heq]
  · rw [heq]

theorem dispatch_of_aborted {s : Scheduler} (h : s.state = .aborted) (point : Point) (m : Module) :
    s.dispatch point m = (.error .aborted, s) := by
  rw [dispatch, if_pos h]

/-- Between its commands a scheduler is idle until it is aborted, which it then stays. -/
theorem state_after (roster : Roster) (commands : List Command) :
    ((ofRoster roster).after commands).state =
      if Command.abort ∈ commands then .aborted else .idle := by
  induction commands using List.reverseRecOn with
  | nil => rfl
  | append_singleton commands command ih =>
    rw [after, List.foldl_append]
    change (obey ((ofRoster roster).after commands) command).state = _
    cases command with
    | abort =>
      rw [if_pos (by simp)]
      rfl
    | dispatch point m =>
      by_cases habort : Command.abort ∈ commands
      · rw [if_pos habort] at ih
        rw [if_pos (by simp [habort]), obey, dispatch_of_aborted ih]
        exact ih
      · rw [if_neg habort] at ih
        rw [if_neg (by simp [habort]), obey, state_dispatch ih]

/-- Whatever the passes do and whatever was asked of the scheduler before, a dispatch shows them
valid modules only. A changed module is valid and is what the last pass to run left behind; if
nothing changed, every pass that ran left the module as it came; a failure is that of the first pass
that failed, after which no pass has a turn. Then the scheduler is idle again, unless it was aborted
before, when it stays so and calls no pass. -/
theorem dispatch_atomic (roster : Roster) (history : List Command) (point : Point) (m : Module) :
    let s := (ofRoster roster).after history
    let result := (s.dispatch point m).1
    let s' := (s.dispatch point m).2
    s'.Guarded ∧
    (∀ m', result = .ok (.changed m') →
      m'.verify = .ok () ∧ LastLeft s.passes s'.passes point m') ∧
    (result = .ok .noChange → ∀ i a shown, HadTurn s.passes s'.passes point i a shown true →
      a.left point shown = m) ∧
    (∀ name fault, result = .ok (.failed name fault) →
      FirstFailed s.passes s'.passes point name fault) ∧
    (Command.abort ∉ history → s.state = .idle ∧ s'.state = .idle) ∧
    (Command.abort ∈ history →
      s.state = .aborted ∧ s.dispatch point m = (.error .aborted, s)) := by
  intro s result s'
  have hstate := state_after roster history
  refine ⟨guarded_dispatch (guarded_after roster history) point m, ?_, ?_, ?_, ?_, ?_⟩
  · intro m' hchanged
    obtain ⟨hm, hbatch⟩ := batch_of_dispatch hchanged
    obtain ⟨hm', hlast | ⟨hedited, -⟩⟩ := hbatch.of_changed hm
    · exact ⟨hm', hlast⟩
    · cases hedited
  · intro hnoChange
    exact (batch_of_dispatch hnoChange).2.of_noChange.2
  · intro name fault hfailed
    exact (batch_of_dispatch hfailed).2.of_failed
  · intro habort
    rw [if_neg habort] at hstate
    exact ⟨hstate, state_dispatch hstate point m⟩
  · intro habort
    rw [if_pos habort] at hstate
    exact ⟨hstate, dispatch_of_aborted hstate point m⟩

end Scheduler

end PassEngine
