import PassEngine.Host.Session
import PassEngine.Proofs.Pass.Atomicity

namespace PassEngine

theorem Scheduler.dispatch_ne_aborted {s : Scheduler} (h : s.state = .idle) (point : Point)
    (m : Dialect.Module) : (s.dispatch point m).1 ≠ .error .aborted := by
  rcases s.dispatch_cases point m with ⟨haborted, -⟩ | ⟨-, e, -, heq⟩ |
    ⟨-, -, outcome, passes, -, heq⟩
  · simp [h] at haborted
  · simp [heq]
  · simp [heq]

end PassEngine

namespace PassEngine.Host

abbrev Reached := Except HostError Outcome × Session

/-- Whether an error tells that the two sides have lost each other. -/
def HostError.isOfProtocol : HostError → Bool
  | protocol _ | sessionClosed | plugin (.protocol _) => true
  | _ => false

namespace Session

/-- What the host makes of a batch that it has run itself. -/
def adopt (s : Session) (point : Point) : Except SchedulerError BatchOutcome → Reached
  | .ok .noChange => (.ok .unchanged, s)
  | .ok (.changed returned) =>
    match returned.raise with
    | .ok m => (.ok .applied, { s with module := m })
    | .error e => s.recover point (e.toPluginError point) .rejected
  | .ok (.failed pass fault) => s.recover point (.passFailure point pass fault.message) .rejected
  | .error e => s.recover point (.malformedResult point e.message) .rejected

/-- Reaches a point with the passes at hand, so that nobody need be asked. -/
def reachLocally (s : Session) (scheduler : Scheduler) (point : Point) : Reached × Scheduler :=
  match s.module.lower with
  | .error e => (s.recover point e.toPluginError .skipped, scheduler)
  | .ok m =>
    let (outcome, scheduler) := scheduler.dispatch point m
    (s.adopt point outcome, scheduler)

def reachEachLocally (s : Session) (scheduler : Scheduler) :
    List Point → List Reached × Session × Scheduler
  | [] => ([], s, scheduler)
  | p :: rest =>
    let (reached, scheduler) := s.reachLocally scheduler p
    let (later, last) := reached.2.reachEachLocally scheduler rest
    (reached :: later, last)

variable {s : Session} {scheduler : Scheduler} {point : Point}

theorem isClosed_recover (e : PluginError) (outcome : Outcome) :
    (s.recover point e outcome).2.isClosed = s.isClosed := by
  rw [recover]
  split <;> rfl

theorem isClosed_adopt (outcome : Except SchedulerError BatchOutcome) :
    (s.adopt point outcome).2.isClosed = s.isClosed := by
  unfold adopt
  split
  · rfl
  · split
    · rfl
    · exact isClosed_recover _ _
  · exact isClosed_recover _ _
  · exact isClosed_recover _ _

theorem isClosed_reachLocally :
    (s.reachLocally scheduler point).1.2.isClosed = s.isClosed := by
  unfold reachLocally
  split
  · exact isClosed_recover _ _
  · exact isClosed_adopt _

theorem state_reachLocally (h : scheduler.state = .idle) :
    (s.reachLocally scheduler point).2.state = .idle := by
  unfold reachLocally
  split
  · exact h
  · exact Scheduler.state_dispatch h point _

section Errors

variable {error : HostError}

theorem isOfProtocol_recover {e : PluginError} {outcome : Outcome} (he : e.code ≠ .protocol)
    (h : (s.recover point e outcome).1 = .error error) : error.isOfProtocol = false := by
  unfold recover at h
  split at h
  · cases h
  · cases h
    cases e with
    | protocol => exact absurd rfl he
    | _ => rfl

theorem isOfProtocol_adopt {outcome : Except SchedulerError BatchOutcome}
    (h : (s.adopt point outcome).1 = .error error) : error.isOfProtocol = false := by
  unfold adopt at h
  split at h
  · cases h
  · split at h
    · cases h
    · exact isOfProtocol_recover (by rintro ⟨⟩) h
  · exact isOfProtocol_recover (by rintro ⟨⟩) h
  · exact isOfProtocol_recover (by rintro ⟨⟩) h

theorem isOfProtocol_reachLocally (h : (s.reachLocally scheduler point).1.1 = .error error) :
    error.isOfProtocol = false := by
  unfold reachLocally at h
  split at h
  · exact isOfProtocol_recover (by rintro ⟨⟩) h
  · exact isOfProtocol_adopt h

/-- Where nobody is asked nobody can be lost. -/
theorem isOfProtocol_reachEachLocally {points : List Point} {reached : Reached}
    (hreached : reached ∈ (s.reachEachLocally scheduler points).1)
    (h : reached.1 = .error error) : error.isOfProtocol = false := by
  induction points generalizing s scheduler with
  | nil => cases hreached
  | cons p rest ih =>
    rcases List.mem_cons.1 hreached with rfl | hlater
    · exact isOfProtocol_reachLocally h
    · exact ih hlater

end Errors

end Session

end PassEngine.Host
