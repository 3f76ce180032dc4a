import PassEngine.Proofs.Pass.Atomicity
import PassEngine.Proofs.Pass.Ordering

namespace PassEngine

open Dialect (Module)

/-- A gate that was asked: the pass as it then was, and the module it was shown. -/
structure Consultation where
  pass : ActivePass
  shown : Module

def Consultation.Fails (c : Consultation) (point : Point) : Prop :=
  ∃ fault ran, c.pass.Fails point c.shown fault ran

/-- Work that writes down the gates it asks, oldest first. -/
abbrev Watched := StateM (List Consultation)

namespace ActivePass

def askGate (a : ActivePass) (point : Point) (m : Module) : Watched (Except Crash Bool) := do
  modify (· ++ [⟨a, m⟩])
  return a.pass.gate a.visits point m

def watchedTurn (a : ActivePass) (point : Point) (m : Module) : Watched (Turn × ActivePass) := do
  match ← a.askGate point m with
  | .error c => return (.failed (.gateCrashed c), a.visited point m false)
  | .ok false => return (.unchanged, a.visited point m false)
  | .ok true =>
    let (report, after) := a.pass.optimize a.visits point m
    return (judge m report after, a.visited point m true)

theorem run_watchedTurn (a : ActivePass) (point : Point) (m : Module) (log : List Consultation) :
    (a.watchedTurn point m).run log = (a.turn point m, log ++ [⟨a, m⟩]) := by
  have hask : (a.askGate point m).run log =
      (a.pass.gate a.visits point m, log ++ [⟨a, m⟩]) := rfl
  rw [watchedTurn, turn, StateT.run_bind, hask]
  cases a.pass.gate a.visits point m with
  | error c => rfl
  | ok run => cases run <;> rfl

end ActivePass

def watchedBatch (point : Point) (edited : Bool) (m : Module) :
    List ActivePass → Watched (BatchOutcome × List ActivePass)
  | [] => return (if edited then .changed m else .noChange, [])
  | a :: rest => do
    if a.point = point then
      match ← a.watchedTurn point m with
      | (.failed fault, a) => return (.failed a.pass.name fault, a :: rest)
      | (.changed m, a) =>
        let (outcome, rest) ← watchedBatch point true m rest
        return (outcome, a :: rest)
      | (.unchanged, a) =>
        let (outcome, rest) ← watchedBatch point edited m rest
        return (outcome, a :: rest)
    else
      let (outcome, rest) ← watchedBatch point edited m rest
      return (outcome, a :: rest)

/-- The passes were asked in order, up to and including the first that failed: all of them, if none
did. -/
structure UpToFailure (point : Point) (passes : List ActivePass) (log : List Consultation) :
    Prop where
  inOrder : log.map Consultation.pass <+: passes
  noneBefore : ∀ c ∈ log.dropLast, ¬c.Fails point
  complete : log.map Consultation.pass = passes ∨ ∃ c, log.getLast? = some c ∧ c.Fails point

namespace UpToFailure

variable {point : Point} {passes : List ActivePass} {log : List Consultation} {a : ActivePass}
  {m : Module}

theorem nil : UpToFailure point [] [] :=
  ⟨List.prefix_rfl, nofun, .inl rfl⟩

theorem failed {fault : PassFault} {ran : Bool} (h : a.Fails point m fault ran) :
    UpToFailure point (a :: passes) [⟨a, m⟩] :=
  ⟨⟨passes, rfl⟩, nofun, .inr ⟨_, rfl, fault, ran, h⟩⟩

theorem cons (hlog : UpToFailure point passes log)
    (h : ∀ fault ran, ¬a.Fails point m fault ran) :
    UpToFailure point (a :: passes) (⟨a, m⟩ :: log) := by
  cases log with
  | nil =>
    have hpasses : passes = [] := by
      rcases hlog.complete with hall | ⟨c, hc, -⟩
      · exact hall.symm
      · cases hc
    rw [hpasses]
    exact ⟨List.prefix_rfl, nofun, .inl rfl⟩
  | cons c rest =>
    refine ⟨List.cons_prefix_cons.2 ⟨rfl, hlog.inOrder⟩, ?_, ?_⟩
    · rintro c' (_ | ⟨_, hc'⟩)
      · rintro ⟨fault, ran, hfails⟩
        exact h fault ran hfails
      · exact hlog.noneBefore c' hc'
    · rcases hlog.complete with hall | hlast
      · exact .inl (congrArg (a :: ·) hall)
      · exact .inr (by rwa [List.getLast?_cons_cons])

end UpToFailure

def bound (point : Point) (passes : List ActivePass) : List ActivePass :=
  passes.filter (·.point = point)

theorem run_rest {x : Watched (BatchOutcome × List ActivePass)} {log log' : List Consultation}
    {result : BatchOutcome × List ActivePass} (h : x.run log = (result, log')) (a : ActivePass) :
    StateT.run (do let (outcome, rest) ← x; return (outcome, a :: rest)) log =
      ((result.1, a :: result.2), log') := by
  rw [StateT.run_bind, h]
  rfl

/-- Watching a batch does not change what it does, and shows that it asks the passes bound to the
point in order, up to the first that fails. -/
theorem run_watchedBatch (point : Point) (edited : Bool) (m : Module) (passes : List ActivePass)
    (log : List Consultation) : ∃ asked,
      (watchedBatch point edited m passes).run log =
        (runBatch point edited m passes, log ++ asked) ∧
      UpToFailure point (bound point passes) asked := by
  induction passes generalizing edited m log with
  | nil => exact ⟨[], by rw [List.append_nil]; rfl, .nil⟩
  -- The log holds what was asked before, so the induction is for any log.
  | cons a rest ih =>
    rw [watchedBatch, runBatch]
    by_cases ha : a.point = point
    · have hbound : bound point (a :: rest) = a :: bound point rest :=
        List.filter_cons_of_pos (decide_eq_true ha)
      rw [if_pos ha, if_pos ha, hbound, StateT.run_bind, ActivePass.run_watchedTurn]
      have happend (asked : List Consultation) :
          log ++ ⟨a, m⟩ :: asked = log ++ [⟨a, m⟩] ++ asked := List.append_cons ..
      rcases a.turn_cases point m with ⟨fault, ran, hfails, hturn⟩ | ⟨hgate, hturn⟩ |
        ⟨hgate, hreport, hleft, hturn⟩ | ⟨hgate, hreport, hverify, hturn⟩
      · rw [hturn]
        exact ⟨_, rfl, .failed hfails⟩
      · obtain ⟨asked, hrun, hasked⟩ := ih edited m (log ++ [⟨a, m⟩])
        have hgoesOn fault ran : ¬a.Fails point m fault ran :=
          ActivePass.not_fails_of_declined hgate
        rw [hturn]
        exact ⟨_, happend asked ▸ run_rest hrun _, hasked.cons hgoesOn⟩
      · obtain ⟨asked, hrun, hasked⟩ := ih edited m (log ++ [⟨a, m⟩])
        have hgoesOn fault ran : ¬a.Fails point m fault ran :=
          ActivePass.not_fails_of_unchanged hgate hreport hleft
        rw [hturn]
        exact ⟨_, happend asked ▸ run_rest hrun _, hasked.cons hgoesOn⟩
      · obtain ⟨asked, hrun, hasked⟩ := ih true (a.left point m) (log ++ [⟨a, m⟩])
        have hgoesOn fault ran : ¬a.Fails point m fault ran :=
          ActivePass.not_fails_of_changed hgate hreport hverify
        rw [hturn]
        exact ⟨_, happend asked ▸ run_rest hrun _, hasked.cons hgoesOn⟩
    · have hbound : bound point (a :: rest) = bound point rest :=
        List.filter_cons_of_neg (by simpa using ha)
      obtain ⟨asked, hrun, hasked⟩ := ih edited m log
      rw [if_neg ha, if_neg ha, hbound]
      exact ⟨asked, run_rest hrun a, hasked⟩

/-- What stays the same of a pass through its turns. -/
def ActivePass.binding (a : ActivePass) : Point × Pass :=
  (a.point, a.pass)

theorem map_pass_bound (point : Point) (passes : List ActivePass) :
    (bound point passes).map ActivePass.pass =
      ((passes.map ActivePass.binding).filter (·.1 = point)).map Prod.snd := by
  rw [List.filter_map, List.map_map]
  rfl

theorem Batch.map_binding {point : Point} {edited : Bool} {m : Module}
    {passes passes' : List ActivePass} {outcome : BatchOutcome}
    (h : Batch point edited m passes outcome passes') :
    passes'.map ActivePass.binding = passes.map ActivePass.binding := by
  induction h with
  | unedited | edited => rfl
  | elsewhere _ _ ih | declined _ _ _ ih | unchanged _ _ _ _ _ ih | changed _ _ _ _ _ ih =>
    exact congrArg (_ :: ·) ih
  | failed => rfl

namespace Scheduler

def watchedDispatch (s : Scheduler) (point : Point) (m : Module) :
    Watched (Except SchedulerError BatchOutcome × Scheduler) :=
  if s.state = .aborted then return (.error .aborted, s)
  else
    match m.fault? with
    | some e => return (.error (.malformedInput point e), s.enter .idle)
    | none =>
      if s.passes.any (·.point = point) then do
        let (outcome, passes) ← watchedBatch point false m s.passes
        return (.ok outcome, { passes, state := .idle })
      else return (.ok .noChange, s.enter .idle)

/-- Watching a dispatch does not change what it does. On a valid module, before it is aborted, the
scheduler asks the passes bound to the point in order, up to the first that fails. -/
theorem run_watchedDispatch (s : Scheduler) (point : Point) (m : Module) : ∃ asked,
    (s.watchedDispatch point m).run [] = (s.dispatch point m, asked) ∧
    (s.state ≠ .aborted → m.verify = .ok () → UpToFailure point (bound point s.passes) asked) := by
  unfold watchedDispatch dispatch examine
  by_cases haborted : s.state = .aborted
  · rw [if_pos haborted, if_pos haborted]
    exact ⟨[], rfl, fun hidle => absurd haborted hidle⟩
  · rw [if_neg haborted, if_neg haborted]
    cases hfault : m.fault? with
    | some e =>
      refine ⟨[], rfl, fun _ hm => ?_⟩
      rw [Module.verify_of_fault?_eq_some hfault] at hm
      cases hm
    | none =>
      have hpasses : (s.enter (.atPoint point)).passes = s.passes := rfl
      simp only [hpasses]
      by_cases hany : s.passes.any (·.point = point) = true
      · obtain ⟨asked, hrun, hasked⟩ := run_watchedBatch point false m s.passes []
        rw [if_pos hany, if_pos hany, StateT.run_bind, hrun]
        exact ⟨asked, rfl, fun _ _ => hasked⟩
      · have hnone : bound point s.passes = [] := by
          rw [bound, List.filter_eq_nil_iff]
          intro a ha hpoint
          exact hany (List.any_eq_true.2 ⟨a, ha, hpoint⟩)
        rw [if_neg hany, if_neg hany, hnone]
        exact ⟨[], rfl, fun _ _ => .nil⟩

theorem map_binding_after (roster : Roster) (history : List Command) :
    ((ofRoster roster).after history).passes.map ActivePass.binding =
      roster.records.map fun r => (r.point, r.pass) := by
  unfold after
  refine List.foldlRecOn (motive := fun s => s.passes.map ActivePass.binding =
    roster.records.map fun r => (r.point, r.pass)) history obey ?_ fun s h command _ => ?_
  · exact List.map_map
  · cases command with
    | abort => exact h
    | dispatch point m =>
      rcases s.dispatch_cases point m with ⟨-, heq⟩ | ⟨-, e, -, heq⟩ |
        ⟨-, -, outcome, passes, hbatch, heq⟩
      · rw [obey, heq]
        exact h
      · rw [obey, heq]
        exact h
      · rw [obey, heq]
        exact hbatch.map_binding.trans h

theorem bound_after (roster : Roster) (history : List Command) (point : Point) :
    (bound point ((ofRoster roster).after history).passes).map ActivePass.pass =
      (roster.boundTo point).map Registration.pass := by
  rw [map_pass_bound, map_binding_after, List.filter_map, List.map_map]
  rfl

/-- Passes run in the order of their priorities, and those of one priority in the order in which
they were registered. A request is refused if its name was accepted before and only then, and leaves
the registry as it was. The frozen registry has the accepted registrations, stably sorted by
priority. A dispatch asks the passes bound to the point in this order, up to and including the first
that fails. The description lists every registration once, point by point along the pipeline, and at
one point in this order. -/
theorem registered_order (requests : List Request) :
    let registry := (Registry.after requests).1
    let accepted := Registry.accepted requests
    let roster := registry.freeze
    (∀ q : Request,
      ((∃ e, (registry.request q).1 = .error e) ↔ q.name ∈ accepted.map Request.name) ∧
      ∀ e, (registry.request q).1 = .error e → (registry.request q).2 = registry) ∧
    StablySorted Registration.priority (Registry.entries accepted) roster.records ∧
    (∀ (history : List Command) (point : Point) (m : Module),
      let s := (ofRoster roster).after history
      s.state ≠ .aborted → m.verify = .ok () →
        (bound point s.passes).map ActivePass.pass =
          (roster.boundTo point).map Registration.pass ∧
        ∃ asked, (s.watchedDispatch point m).run [] = (s.dispatch point m, asked) ∧
          UpToFailure point (bound point s.passes) asked) ∧
    StablySorted Roster.position roster.records roster.listing ∧
    roster.describe = roster.listing.map Roster.label ∧ roster.describe.Nodup := by
  intro registry accepted roster
  have hholds : registry.Holds accepted := Registry.holds_after requests
  have hsorted := Registry.stablySorted_freeze requests
  refine ⟨fun q => ?_, hsorted, fun history point m => ?_, roster.stablySorted_listing,
    roster.describe_eq, ?_⟩
  · rw [← Registry.map_name_entries, ← hholds.records]
    rcases registry.request_cases q with ⟨hname, hrequest⟩ | ⟨hname, hrequest⟩
    · rw [hrequest]
      exact ⟨⟨fun _ => hname, fun _ => ⟨_, rfl⟩⟩, fun _ _ => rfl⟩
    · rw [hrequest]
      refine ⟨⟨?_, fun h => absurd h hname⟩, nofun⟩
      rintro ⟨e, ⟨⟩⟩
  · intro s hidle hm
    obtain ⟨asked, hrun, hasked⟩ := s.run_watchedDispatch point m
    exact ⟨bound_after roster history point, asked, hrun, hasked hidle hm⟩
  -- Labels are as different as the names in them, and freezing only reorders the names.
  · apply Roster.nodup_describe
    rw [(hsorted.perm.map Registration.name).nodup_iff, Registry.map_name_entries]
    exact hholds.nodup

def idle (name : String) : Pass where
  name := name
  gate := fun _ _ _ => .ok false
  optimize := fun _ _ m => (.noChange, m)

def late : Request := ⟨.beforeIpa, "late", 5, idle "late"⟩

def first : Request := ⟨.beforeIpa, "first", -1, idle "first"⟩

def other : Request := ⟨.compileEnd, "other", 0, idle "other"⟩

def again : Request := ⟨.afterIpa, "late", -7, idle "again"⟩

def second : Request :=
  ⟨.beforeIpa, "second", -1, { idle "second" with gate := fun _ _ _ => .error ⟨none⟩ }⟩

def contested : Registry :=
  (Registry.after [late, first, other, again, second]).1

theorem freeze_contested : contested.freeze =
    ⟨[first.record 1, second.record 3, other.record 2, late.record 0]⟩ := by
  have hrecords : contested.records =
      [late.record 0, first.record 1, other.record 2, second.record 3] := rfl
  rw [Registry.freeze, hrecords]
  simp [List.mergeSort, List.MergeSort.Internal.splitInTwo, Registration.le, Request.record, late,
    first, other, second]

def ofContested : Scheduler :=
  ofRoster contested.freeze

theorem registered_order_contested :
    (contested.request again).2 = contested ∧
    contested.freeze.describe = ["before-ipa:first", "before-ipa:second", "before-ipa:late",
      "compile-end:other"] ∧
    contested.freeze.describe.Nodup ∧
    ∃ asked, (ofContested.watchedDispatch .beforeIpa { name := "m" }).run [] =
        (ofContested.dispatch .beforeIpa { name := "m" }, asked) ∧
      asked.map (fun c => c.pass.pass.name) = ["first", "second"] ∧
      UpToFailure .beforeIpa (bound .beforeIpa ofContested.passes) asked := by
  obtain ⟨hrequest, -, hdispatch, -, -, hnodup⟩ :=
    registered_order [late, first, other, again, second]
  obtain ⟨e, he⟩ := (hrequest again).1.2 (by decide +kernel)
  obtain ⟨-, asked, hrun, hasked⟩ :=
    hdispatch [] .beforeIpa { name := "m" } (by decide) (by decide +kernel)
  have hdescribe : contested.freeze.describe = ["before-ipa:first", "before-ipa:second",
      "before-ipa:late", "compile-end:other"] := by
    rw [freeze_contested]
    decide +kernel
  have hnames : ((ofContested.watchedDispatch .beforeIpa { name := "m" }).run []).2.map
      (fun c => c.pass.pass.name) = ["first", "second"] := by
    rw [ofContested, freeze_contested]
    decide +kernel
  have hasked' : ((ofContested.watchedDispatch .beforeIpa { name := "m" }).run []).2 = asked :=
    congrArg Prod.snd hrun
  exact ⟨(hrequest _).2 e he, hdescribe, hnodup, asked, hrun, hasked' ▸ hnames, hasked⟩

end Scheduler

end PassEngine
