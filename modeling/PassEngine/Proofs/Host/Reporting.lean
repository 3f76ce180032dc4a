import PassEngine.Proofs.Host.Protocol

namespace PassEngine.Reporter

structure Counted (r : Reporter) : Prop where
  errors : r.errorCount = r.diagnostics.countP (·.severity = .error)
  warnings : r.warningCount = r.diagnostics.countP (·.severity = .warning)

variable {r : Reporter}

theorem counted_empty : Counted {} := ⟨rfl, rfl⟩

theorem Counted.report (h : r.Counted) (d : Diagnostic) : (r.report d).Counted := by
  obtain ⟨herrors, hwarnings⟩ := h
  constructor
  · cases hseverity : d.severity <;> simp [Reporter.report, tally, hseverity, herrors]
  · cases hseverity : d.severity <;> simp [Reporter.report, tally, hseverity, hwarnings]

theorem Counted.hasErrors_iff (h : r.Counted) :
    r.hasErrors = true ↔ ∃ d ∈ r.diagnostics, d.severity = .error := by
  simp [hasErrors, h.errors, List.countP_pos_iff]

end PassEngine.Reporter

namespace PassEngine.Host

open Wire

/-- How grave the result of a call is under a policy, if it is a failure that is news. -/
def ErrorPolicy.severity? : ErrorPolicy → Except HostError Outcome → Option Severity
  | _, .ok .unchanged | _, .ok .applied | _, .error .sessionClosed => none
  | .warn, .ok .skipped | .warn, .ok .rejected => some .warning
  | _, _ => some .error

/-- A call adds one diagnostic, for its point and as grave as the policy says, or none if there is
nothing to tell. -/
structure Call.ReportsOnce (x : Call) (policy : ErrorPolicy) : Prop where
  silent : policy.severity? x.result = none → x.after.reporter = x.before.reporter
  once : ∀ severity, policy.severity? x.result = some severity →
    ∃ d, x.after.reporter = x.before.reporter.report d ∧ d.severity = severity ∧
      d.point = some x.point

inductive Call.Reported (x : Call) (policy : ErrorPolicy) : Prop
  | silent (hresult : x.result = .ok .unchanged ∨ x.result = .ok .applied ∨
      x.result = .error .sessionClosed) (h : x.after.reporter = x.before.reporter)
  | warning {d : Diagnostic} (hpolicy : policy = .warn)
    (hresult : x.result = .ok .skipped ∨ x.result = .ok .rejected)
    (h : x.after.reporter = x.before.reporter.report d) (hseverity : d.severity = .warning)
    (hpoint : d.point = some x.point)
  | error {d : Diagnostic} {e : HostError} (hresult : x.result = .error e)
    (hnews : e ≠ .sessionClosed) (hbroken : policy = .warn → x.Broken)
    (h : x.after.reporter = x.before.reporter.report d) (hseverity : d.severity = .error)
    (hpoint : d.point = some x.point)

theorem ErrorPolicy.severity?_error (policy : ErrorPolicy) {e : HostError}
    (h : e ≠ .sessionClosed) : policy.severity? (.error e) = some .error := by
  cases e with
  | sessionClosed => exact absurd rfl h
  | _ => cases policy <;> rfl

namespace Call.Reported

variable {x : Call} {policy : ErrorPolicy}

theorem cases_severity? (h : x.Reported policy) :
    (policy.severity? x.result = none ∧ x.after.reporter = x.before.reporter) ∨
    ∃ d, policy.severity? x.result = some d.severity ∧
      x.after.reporter = x.before.reporter.report d ∧ d.point = some x.point := by
  cases h with
  | silent hresult h =>
    refine .inl ⟨?_, h⟩
    rcases hresult with hresult | hresult | hresult <;> rw [hresult] <;> cases policy <;> rfl
  | warning hpolicy hresult h hseverity hpoint =>
    refine .inr ⟨_, ?_, h, hpoint⟩
    subst hpolicy
    rcases hresult with hresult | hresult <;> rw [hresult, hseverity] <;> rfl
  | error hresult hnews _ h hseverity hpoint =>
    refine .inr ⟨_, ?_, h, hpoint⟩
    rw [hresult, policy.severity?_error hnews, hseverity]

theorem reportsOnce (h : x.Reported policy) : x.ReportsOnce policy := by
  rcases h.cases_severity? with ⟨hnone, hreporter⟩ | ⟨d, hsome, hreporter, hpoint⟩
  · exact ⟨fun _ => hreporter, fun severity hseverity => by simp [hnone] at hseverity⟩
  · refine ⟨fun hnone => by simp [hsome] at hnone, fun severity hseverity => ?_⟩
    exact ⟨d, hreporter, Option.some.inj (hsome.symm.trans hseverity), hpoint⟩

theorem severity?_eq_error_iff (h : x.Reported policy) :
    policy.severity? x.result = some .error ↔ ∃ e, x.result = .error e ∧ e ≠ .sessionClosed := by
  constructor
  · intro herror
    cases h with
    | silent hresult _ =>
      rcases hresult with hresult | hresult | hresult <;> rw [hresult] at herror <;>
        cases policy <;> cases herror
    | warning hpolicy hresult _ _ _ =>
      subst hpolicy
      rcases hresult with hresult | hresult <;> rw [hresult] at herror <;> cases herror
    | error hresult hnews _ _ _ _ => exact ⟨_, hresult, hnews⟩
  · rintro ⟨e, hresult, hnews⟩
    rw [hresult, policy.severity?_error hnews]

/-- Under the policy to warn, only the breaking of the protocol is an error. -/
theorem broken_iff (h : x.Reported .warn) :
    x.Broken ↔ ∃ e, x.result = .error e ∧ e ≠ .sessionClosed := by
  constructor
  · rintro (⟨e, he⟩ | ⟨message, he⟩)
    · exact ⟨_, he, by simp⟩
    · exact ⟨_, he, by simp⟩
  · rintro ⟨e, he, hnews⟩
    cases h with
    | silent hresult _ =>
      rcases hresult with hresult | hresult | hresult <;> rw [hresult] at he <;> cases he
      exact absurd rfl hnews
    | warning _ hresult _ _ _ =>
      rcases hresult with hresult | hresult <;> rw [hresult] at he <;> cases he
    | error _ _ hbroken _ _ _ => exact hbroken rfl

end Call.Reported

namespace Session

section Step

variable (s : Session) (point : Point) (events : List Event)

theorem config_recover (e : PluginError) (outcome : Outcome) :
    (s.recover point e outcome).2.config = s.config := by
  rw [recover]
  split <;> rfl

theorem reported_recover {e : PluginError} {outcome : Outcome}
    (he : ∀ severity, (e.toDiagnostic severity (some point)).point = some point)
    (houtcome : outcome = .skipped ∨ outcome = .rejected) :
    Call.Reported ⟨point, s, events, (s.recover point e outcome).1,
      (s.recover point e outcome).2⟩ s.config.policy := by
  cases hpolicy : s.config.policy with
  | warn =>
    refine .warning rfl ?_ ?_ rfl (he .warning)
    · simpa [recover, hpolicy] using houtcome
    · simp [recover, hpolicy, report]
  | fatal =>
    refine .error (e := .plugin e) ?_ (by simp) (by simp) ?_ rfl (he .error)
    · simp [recover, hpolicy]
    · simp [recover, hpolicy, report]

theorem config_accept (payload : Payload) : (s.accept point payload).2.config = s.config := by
  cases payload with
  | noChange => rfl
  | module returned =>
    simp only [accept]
    split
    · rfl
    · exact s.config_recover point _ _
  | error code message pass =>
    simp only [accept]
    split
    · exact s.config_recover point _ _
    · rfl

theorem point_pluginError (code : ErrorCode) (message : String) (pass : Option String)
    (severity : Severity) :
    ((pluginError point code message pass).toDiagnostic severity (some point)).point =
      some point := by
  cases code <;> rfl

theorem reported_accept (payload : Payload) :
    Call.Reported ⟨point, s, events, (s.accept point payload).1, (s.accept point payload).2⟩
      s.config.policy := by
  cases payload with
  | noChange => exact .silent (.inl rfl) rfl
  | module returned =>
    cases hraise : returned.raise with
    | ok m => exact .silent (.inr (.inl (by simp [accept, hraise]))) (by simp [accept, hraise])
    | error e =>
      simp only [accept, hraise]
      exact s.reported_recover point events (fun _ => rfl) (.inr rfl)
  | error code message pass =>
    cases code with
    | protocol =>
      rw [accept_protocol]
      exact .error rfl (by simp) (fun _ => .inr ⟨message, rfl⟩) rfl rfl rfl
    | _ =>
      exact s.reported_recover point events (point_pluginError point _ message pass) (.inr rfl)

variable {σ : Type} (c : Channel σ) (peer : σ)

/-- All that can come of a point: the session is closed, or the module cannot be sent, or the server
answers, or the protocol fails. -/
theorem run_reach_cases :
    ((s.reach point).run c peer).1 = (.error .sessionClosed, s) ∨
    (∃ e : Unsupported, ((s.reach point).run c peer).1 = s.recover point e.toPluginError .skipped) ∨
    (∃ payload, ((s.reach point).run c peer).1 = s.accept point payload) ∨
    ∃ e : ProtocolError, ((s.reach point).run c peer).1 =
      (.error (.protocol e), { s.report point .error e.toPluginError with isClosed := true }) := by
  cases hclosed : s.isClosed with
  | true => exact .inl (by simp [reach, hclosed])
  | false =>
    cases hlower : s.module.lower with
    | error e => exact .inr (.inl ⟨e, by simp [reach, hclosed, hlower]⟩)
    | ok m =>
      cases hinvoke : ((invoke point m).run c peer).1 with
      | ok payload =>
        refine .inr (.inr (.inl ⟨payload, ?_⟩))
        simp [reach, hclosed, hlower, Dialogue.run_bind, hinvoke]
      | error e =>
        refine .inr (.inr (.inr ⟨e, ?_⟩))
        simp [reach, hclosed, hlower, Dialogue.run_bind, hinvoke, run_giveUp]

theorem reported_call : (s.call c point peer).Reported s.config.policy := by
  rw [call]
  rcases s.run_reach_cases point c peer with hrun | ⟨e, hrun⟩ | ⟨payload, hrun⟩ | ⟨e, hrun⟩
  · rw [hrun]
    exact .silent (.inr (.inr rfl)) rfl
  · rw [hrun]
    exact s.reported_recover point _ (fun _ => rfl) (.inl rfl)
  · rw [hrun]
    exact s.reported_accept point _ payload
  · rw [hrun]
    exact .error rfl (by simp) (fun _ => .inl ⟨e, rfl⟩) rfl rfl rfl

theorem config_call : (s.call c point peer).after.config = s.config := by
  rw [call]
  rcases s.run_reach_cases point c peer with hrun | ⟨e, hrun⟩ | ⟨payload, hrun⟩ | ⟨e, hrun⟩
  · rw [hrun]
  · rw [hrun]
    exact s.config_recover point _ _
  · rw [hrun]
    exact s.config_accept point payload
  · rw [hrun]
    rfl

end Step

section Run

variable {σ : Type} (c : Channel σ) {s : Session} {peer : σ} {points : List Point}

theorem reported_of_mem_calls {x : Call} (hx : x ∈ (s.calls c peer points).1) :
    x.Reported s.config.policy := by
  induction points generalizing s peer with
  | nil => cases hx
  | cons p rest ih =>
    rcases List.mem_cons.1 hx with rfl | hx
    · exact s.reported_call p c peer
    · have hlater := ih hx
      rwa [config_call] at hlater

/-- A session's diagnostics are those of its calls, one after the other. -/
theorem diagnostics_calls (s : Session) (peer : σ) (points : List Point) :
    (s.calls c peer points).2.reporter.diagnostics.map (fun d => (d.severity, d.point)) =
      s.reporter.diagnostics.map (fun d => (d.severity, d.point)) ++
        (s.calls c peer points).1.filterMap fun x =>
          (s.config.policy.severity? x.result).map (·, some x.point) := by
  induction points generalizing s peer with
  | nil => simp [calls]
  | cons p rest ih =>
    simp only [calls, ih, config_call, List.filterMap_cons]
    rcases (s.reported_call p c peer).cases_severity? with
      ⟨hnone, hreporter⟩ | ⟨d, hsome, hreporter, hpoint⟩
    · rw [hnone, hreporter]
      rfl
    · rw [hsome, hreporter, ← hpoint]
      simp [call]

theorem counted_calls (h : s.reporter.Counted) : (s.calls c peer points).2.reporter.Counted := by
  induction points generalizing s peer with
  | nil => exact h
  | cons p rest ih =>
    refine ih ?_
    rcases (s.reported_call p c peer).cases_severity? with ⟨-, hreporter⟩ | ⟨d, -, hreporter, -⟩
    · rw [hreporter]
      exact h
    · rw [hreporter]
      exact h.report d

/-- A session that starts without diagnostics has errors exactly if some call failed with one. -/
theorem hasErrors_calls (h : s.reporter = {}) :
    (s.calls c peer points).2.reporter.hasErrors = true ↔
      ∃ x ∈ (s.calls c peer points).1, ∃ e, x.result = .error e ∧ e ≠ .sessionClosed := by
  have hcounted : s.reporter.Counted := h ▸ Reporter.counted_empty
  have hdiagnostics := s.diagnostics_calls c peer points
  rw [h, List.map_nil, List.nil_append] at hdiagnostics
  have hseverities : (s.calls c peer points).2.reporter.diagnostics.map Diagnostic.severity =
      (s.calls c peer points).1.filterMap fun x => s.config.policy.severity? x.result := by
    simpa [List.map_filterMap, Function.comp_def] using congrArg (List.map Prod.fst) hdiagnostics
  rw [(counted_calls c hcounted).hasErrors_iff]
  calc (∃ d ∈ (s.calls c peer points).2.reporter.diagnostics, d.severity = .error)
      ↔ Severity.error ∈ (s.calls c peer points).2.reporter.diagnostics.map Diagnostic.severity := by
        rw [List.mem_map]
    _ ↔ ∃ x ∈ (s.calls c peer points).1, s.config.policy.severity? x.result = some .error := by
        rw [hseverities, List.mem_filterMap]
    _ ↔ _ := exists_congr fun x => and_congr_right fun hx =>
        (reported_of_mem_calls c hx).severity?_eq_error_iff

end Run

section Connected

variable {σ : Type} {c : Channel σ} {peer : σ} {config : Config} {m : Native.Module} {s : Session}

theorem eq_of_connect (h : ((connect config m).run c peer).1 = .ok s) :
    s = { config, module := m, passes := s.passes } := by
  simp only [connect, Dialogue.run_bind, Dialogue.run_say] at h
  cases hsend : (c.send peer { body := .hello config.client dialectVersion }).1 with
  | error e =>
    rw [hsend] at h
    cases h
  | ok =>
    simp only [hsend, Dialogue.run_bind, Dialogue.run_listen] at h
    generalize (c.send peer { body := .hello config.client dialectVersion }).2 = peer at h
    cases hreceive : (c.receive peer).1 with
    | error e =>
      rw [hreceive] at h
      cases h
    | ok envelope =>
      obtain ⟨version, body⟩ := envelope
      rw [hreceive] at h
      cases body <;> cases h
      rfl

/-- Whatever the peer does and to whichever points the host comes, each failure is reported once and
as gravely as the policy asks. So there are errors exactly if a call failed with one, and under the
policy to warn exactly if the session is closed. -/
theorem failures_reported_once (h : ((connect config m).run c peer).1 = .ok s)
    (points : List Point) :
    let (calls, last) := s.calls c ((connect config m).run c peer).2 points
    (∀ x ∈ calls, x.ReportsOnce config.policy) ∧
    last.reporter.diagnostics.map (fun d => (d.severity, d.point)) =
      calls.filterMap (fun x => (config.policy.severity? x.result).map (·, some x.point)) ∧
    last.reporter.Counted ∧
    (last.reporter.hasErrors = true ↔
      ∃ x ∈ calls, ∃ e, x.result = .error e ∧ e ≠ .sessionClosed) ∧
    (config.policy = .warn → (last.reporter.hasErrors = true ↔ last.isClosed = true)) := by
  obtain ⟨hconfig, hreporter, hopen⟩ :
      s.config = config ∧ s.reporter = {} ∧ s.isClosed = false := by
    rw [eq_of_connect h]
    exact ⟨rfl, rfl, rfl⟩
  subst hconfig
  refine ⟨fun x hx => (reported_of_mem_calls c hx).reportsOnce, ?_, ?_,
    hasErrors_calls c hreporter, fun hpolicy => ?_⟩
  · rw [diagnostics_calls, hreporter]
    rfl
  · exact counted_calls c (hreporter ▸ Reporter.counted_empty)
  -- Under the policy to warn a call is an error just where it closes the session.
  · rw [hasErrors_calls c hreporter, isClosed_calls, hopen]
    simp only [Bool.false_eq_true, false_or]
    refine exists_congr fun x => and_congr_right fun hx => ?_
    have hreported := reported_of_mem_calls c hx
    rw [hpolicy] at hreported
    exact hreported.broken_iff.symm

/-- A peer that has its answers ready, and is silent when it has given them all. -/
def prepared : Channel (List Received) where
  send answers _ := (.ok (), answers)
  receive
    | [] => (.error .timeout, [])
    | answer :: rest => (answer, rest)

/-- The host is welcomed and keeps its module, then a pass fails, then there is a module that the
verifier does not accept. -/
def excuses : List Received :=
  [.ok { body := .welcome "server" [] },
    .ok { body := .result .beforeIpa .noChange },
    .ok { body := .result .beforeIpa (.error .passFailure "gave up" (some "fold")) },
    .ok { body := .result .afterIpa (.module { name := "m", functions := [
      { symbol := "f", params := [], ret := .void, isExternal := false }] }) }]

theorem failures_reported_once_excuses :
    ∃ s, ((connect {} { name := "m" }).run prepared excuses).1 = .ok s ∧
      let (calls, last) := s.calls prepared ((connect {} { name := "m" }).run prepared excuses).2
        [.beforeIpa, .beforeIpa, .afterIpa, .compileEnd, .compileEnd]
      calls.map (·.result) = [.ok .unchanged, .ok .rejected, .ok .rejected,
        .error (.protocol .timeout), .error .sessionClosed] ∧
      (∀ x ∈ calls, x.ReportsOnce .warn) ∧
      last.reporter.diagnostics.map (fun d => (d.severity, d.point)) =
        [(.warning, some .beforeIpa), (.warning, some .afterIpa), (.error, some .compileEnd)] ∧
      last.reporter.errorCount = 1 ∧ last.reporter.warningCount = 2 ∧ last.isClosed = true := by
  have hconnect : ((connect {} { name := "m" }).run prepared excuses).1 =
      .ok { config := {}, module := { name := "m" }, passes := [] } := rfl
  obtain ⟨honce, -, -, -, hclosed⟩ := failures_reported_once hconnect
    [.beforeIpa, .beforeIpa, .afterIpa, .compileEnd, .compileEnd]
  refine ⟨_, hconnect, ?_, honce, ?_, ?_, ?_, (hclosed rfl).1 ?_⟩
  · decide +kernel
  · decide +kernel
  · decide +kernel
  · decide +kernel
  · decide +kernel

end Connected

end Session

end PassEngine.Host
