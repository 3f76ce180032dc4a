import PassEngine.Proofs.Host.Local
import PassEngine.Proofs.Remote.System
import PassEngine.Proofs.Wire.Transcript

namespace PassEngine.Host

open Wire

namespace Session

def reachEach (s : Session) : List Point → Dialogue (List Reached × Session)
  | [] => return ([], s)
  | p :: rest => do
    let reached ← s.reach p
    let (later, last) ← reached.2.reachEach rest
    return (reached :: later, last)

/-- The host's side of a whole session: it greets the server, reaches points and takes its leave.
What it has in the end is the session as it was opened, and what came of each point. -/
def attend (config : Config) (m : Native.Module) (points : List Point) :
    Dialogue (Except HostError (Session × List Reached)) := do
  match ← connect config m with
  | .error e => return .error e
  | .ok s =>
    let (reached, last) ← s.reachEach points
    last.finish
    return .ok (s, reached)

end Session

end PassEngine.Host

namespace PassEngine.Remote

open Wire
open Host (Session Reached)

/-- What is said about a point: nothing if the host's module cannot be put in the dialect. -/
def aboutPoint (s : Session) (scheduler : Scheduler) (point : Point) : List Envelope :=
  match s.module.lower with
  | .error _ => []
  | .ok m =>
    [{ body := .invoke point m },
      { body := .result point (Server.Session.payload (scheduler.dispatch point m).1) }]

def aboutPoints (s : Session) (scheduler : Scheduler) : List Point → List Envelope
  | [] => []
  | p :: rest =>
    let (reached, scheduler') := s.reachLocally scheduler p
    aboutPoint s scheduler p ++ aboutPoints reached.2 scheduler' rest

def opened (roster : Roster) (config : Host.Config) (m : Native.Module) : Session where
  config
  module := m
  passes := roster.describe

/-- All that host and server say to each other in a session. -/
def exchange (roster : Roster) (config : Host.Config) (m : Native.Module) (points : List Point) :
    List Envelope :=
  { body := .hello config.client dialectVersion } ::
    { body := .welcome Server.name roster.describe } ::
    aboutPoints (opened roster config m) (.ofRoster roster) points ++ [{ body := .goodbye }]

def start (roster : Roster) (config : Host.Config) (m : Native.Module) (points : List Point) :
    System (Except Host.HostError (Session × List Reached)) where
  host := Session.attend config m points
  server := .listening (.greeting roster)

section Reach

variable {s : Session} {scheduler : Scheduler} {point : Point}

/-- What the host makes of a result is what it would make of the batch itself. -/
theorem accept_payload {outcome : Except SchedulerError BatchOutcome}
    (h : outcome ≠ .error .aborted) :
    s.accept point (Server.Session.payload outcome) = s.adopt point outcome := by
  cases outcome with
  | ok outcome => cases outcome <;> rfl
  | error e =>
    cases e with
    | aborted => exact absurd rfl h
    | malformedInput => rfl

variable {β : Type} {Goal : System β → Prop} {es : List Envelope}

theorem asks_reach {m : Dialect.Module} (hopen : s.isClosed = false)
    (hlower : s.module.lower = .ok m) (f : Reached → Dialogue β) :
    ∃ next, Asks (s.reach point >>= f) (.invoke point m) next ∧
      ∀ payload, next (.ok { body := .result point payload }) = f (s.accept point payload) := by
  unfold Session.reach
  rw [hopen, if_neg (by decide), hlower]
  refine ⟨_, ⟨_, rfl, rfl⟩, fun payload => ?_⟩
  simp only [Dialogue.bind, if_true]
  rfl

theorem Leads.reach (hopen : s.isClosed = false) (hidle : scheduler.state = .idle)
    (hfits : ∀ e ∈ aboutPoint s scheduler point, e.Fits) (f : Reached → Dialogue β)
    (h : Leads Goal ⟨f (s.reachLocally scheduler point).1,
      .listening (.serving (s.reachLocally scheduler point).2), between [] []⟩ es) :
    Leads Goal ⟨s.reach point >>= f, .listening (.serving scheduler), between [] []⟩
      (aboutPoint s scheduler point ++ es) := by
  cases hlower : s.module.lower with
  | error e =>
    -- The server is not asked: what the host does is over before it sends anything.
    have hreach : s.reach point = .done (s.recover point e.toPluginError .skipped) := by
      rw [Session.reach, hopen, if_neg (by decide), hlower]
      rfl
    simp only [Session.reachLocally, hlower] at h
    simp only [hreach, aboutPoint, hlower]
    exact h
  | ok m =>
    obtain ⟨next, hasks, hnext⟩ := asks_reach hopen hlower f
    simp only [aboutPoint, hlower, List.forall_mem_cons] at hfits
    simp only [Session.reachLocally, hlower] at h
    simp only [aboutPoint, hlower]
    refine .roundTrip hasks hfits.1 hfits.2.1 rfl ?_
    -- Only an aborted scheduler has the server give an answer that closes the session.
    rw [hnext, accept_payload (Scheduler.dispatch_ne_aborted hidle point m)]
    exact h

end Reach

/-- Point after point, the host comes to have what it would have had without the server. -/
theorem Leads.reachEach {β : Type} {Goal : System β → Prop} {es : List Envelope}
    (points : List Point) {s : Session} {scheduler : Scheduler} (hopen : s.isClosed = false)
    (hidle : scheduler.state = .idle) (hfits : ∀ e ∈ aboutPoints s scheduler points, e.Fits)
    (f : List Reached × Session → Dialogue β)
    (h : ∀ reached last scheduler',
      s.reachEachLocally scheduler points = (reached, last, scheduler') → last.isClosed = false →
      Leads Goal ⟨f (reached, last), .listening (.serving scheduler'), between [] []⟩ es) :
    Leads Goal ⟨s.reachEach points >>= f, .listening (.serving scheduler), between [] []⟩
      (aboutPoints s scheduler points ++ es) := by
  -- The continuation is generalised, for each point adds to what is done with the later ones.
  induction points generalizing s scheduler f with
  | nil => exact h [] s scheduler rfl hopen
  | cons p rest ih =>
    obtain ⟨hpoint, hrest⟩ := List.forall_mem_append.1 hfits
    rw [Session.reachEach, Dialogue.bind_assoc, aboutPoints, List.append_assoc]
    refine .reach hopen hidle hpoint _ ?_
    rw [Dialogue.bind_assoc]
    refine ih (Session.isClosed_reachLocally.trans hopen) (Session.state_reachLocally hidle) hrest
      _ ?_
    intro reached last scheduler' heq hlast
    refine h ((s.reachLocally scheduler p).1 :: reached) last scheduler' ?_ hlast
    exact congrArg (fun later => ((s.reachLocally scheduler p).1 :: later.1, later.2)) heq

theorem Leads.finish {β : Type} {Goal : System β → Prop} {s : Session} {scheduler : Scheduler}
    {b : β} (hopen : s.isClosed = false) (hfits : Envelope.Fits { body := .goodbye })
    (hgoal : ∀ link, Goal ⟨.done b, .ended (.ok .closed), link⟩) :
    Leads Goal ⟨s.finish >>= fun _ => .done b, .listening (.serving scheduler), between [] []⟩
      [{ body := .goodbye }] := by
  obtain ⟨bytes, hencode, hopen'⟩ := Message.exists_encode hfits
  have hsent : hostStep (s.finish >>= fun _ => .done b) (between [] []) =
      some (some { body := .goodbye }, .done b, between [] [bytes]) := by
    have hfinish : (s.finish >>= fun _ => .done b) =
        .send { body := .goodbye } fun _ => .done b := by
      rw [Session.finish, hopen]
      rfl
    rw [hfinish, hostStep, send_between hencode [] []]
    rfl
  refine .of_host rfl hsent (.of_lastWord ?_ hgoal)
  rw [hopen']
  rfl

theorem Leads.attend (roster : Roster) (config : Host.Config) (m : Native.Module)
    (points : List Point) (hfits : ∀ e ∈ exchange roster config m points, e.Fits) :
    Leads (fun s => s.host = .done (.ok (opened roster config m,
        ((opened roster config m).reachEachLocally (.ofRoster roster) points).1)) ∧
      s.server = .ended (.ok .closed))
      (start roster config m points) (exchange roster config m points) := by
  simp only [exchange, List.cons_append, List.forall_mem_cons, List.forall_mem_append] at hfits
  obtain ⟨hhello, hwelcome, hpoints, hgoodbye, -⟩ := hfits
  refine .roundTrip ⟨_, rfl, rfl⟩ hhello hwelcome rfl ?_
  refine .reachEach points rfl rfl hpoints _ ?_
  intro reached last scheduler heq hlast
  rw [heq]
  exact .finish hlast hgoodbye fun _ => ⟨rfl, rfl⟩

/-- A session over a connection refines the computation without one, in whatever order the two
parties go. It comes to an end; until then nothing else is said than what the computation calls for;
and in the end the host was let in and has at each point the outcome and the session that the
computation has, never one of a broken protocol, while the server has been taken leave of. -/
theorem session_refines_locally (roster : Roster) (config : Host.Config) (m : Native.Module)
    (points : List Point) (hfits : ∀ e ∈ exchange roster config m points, e.Fits) :
    (∀ run : Nat → System (Except Host.HostError (Session × List Reached)),
      run 0 = start roster config m points → ¬∀ n, ∃ l, Step (run n) l (run (n + 1))) ∧
    (∀ sent s, Run (start roster config m points) sent s →
      sent <+: exchange roster config m points ∧
      (Halted s → sent = exchange roster config m points ∧
        s.host = .done (.ok (opened roster config m,
          ((opened roster config m).reachEachLocally (.ofRoster roster) points).1)) ∧
        s.server = .ended (.ok .closed))) ∧
    ∀ reached ∈ ((opened roster config m).reachEachLocally (.ofRoster roster) points).1,
      ∀ error, reached.1 = .error error → error.isOfProtocol = false := by
  have hleads := Leads.attend roster config m points hfits
  refine ⟨fun run hstart => hleads.not_forever run hstart, fun sent s hrun => ?_, ?_⟩
  · obtain ⟨rest, hsent, hrest⟩ := hleads.run hrun
    refine ⟨⟨rest, hsent.symm⟩, fun hhalted => ?_⟩
    obtain ⟨hgoal, rfl⟩ := hrest.of_halted hhalted
    rw [List.append_nil] at hsent
    exact ⟨hsent.symm, hgoal⟩
  · exact fun reached hreached error h => Session.isOfProtocol_reachEachLocally hreached h

/-- A pass that changes a module's name at one point, and one that breaks off at another. -/
def renamingRoster : Roster where
  records :=
    [{ name := "rename", point := .beforeIpa, priority := 0, seq := 0
       pass := { name := "rename", gate := fun _ _ _ => .ok true
                 optimize := fun _ _ m => (.changed, { m with name := "out" }) } },
      { name := "break", point := .afterIpa, priority := 0, seq := 1
        pass := { name := "break", gate := fun _ _ _ => .error ⟨none⟩
                  optimize := fun _ _ m => (.noChange, m) } }]

/-- Where failures are fatal, the host ends a session with a module that was replaced at its first
point and survived the failure at the second. -/
theorem session_refines_locally_renaming :
    (∀ e ∈ exchange renamingRoster { policy := .fatal } { name := "in" } [.beforeIpa, .afterIpa],
      e.Fits) ∧
    ∀ sent s, Run (start renamingRoster { policy := .fatal } { name := "in" }
        [.beforeIpa, .afterIpa]) sent s → Halted s →
      sent.length = 7 ∧ s.server = .ended (.ok .closed) ∧
      ∃ opened reached, s.host = .done (.ok (opened, reached)) ∧
        reached.map (fun r => (r.1, r.2.module.name)) = [(.ok .applied, "out"),
          (.error (.plugin (.passFailure .afterIpa "break"
            "panicked in gate: unknown panic payload")), "out")] := by
  have hlength : ∀ e ∈ exchange renamingRoster { policy := .fatal } { name := "in" }
      [.beforeIpa, .afterIpa], 4 * (Json.compact e.toJson).length ≤ maxFrameLength ∧
        e.toJson.depth ≤ Json.maxDepth := by
    decide +kernel
  have hfits : ∀ e ∈ exchange renamingRoster { policy := .fatal } { name := "in" }
      [.beforeIpa, .afterIpa], e.Fits := fun e he =>
    Envelope.fits_of_length_le (hlength e he).1 (hlength e he).2
  refine ⟨hfits, fun sent s hrun hhalted => ?_⟩
  obtain ⟨-, hruns, -⟩ := session_refines_locally renamingRoster { policy := .fatal }
    { name := "in" } [.beforeIpa, .afterIpa] hfits
  obtain ⟨hsent, hhost, hserver⟩ := (hruns sent s hrun).2 hhalted
  refine ⟨hsent ▸ rfl, hserver, _, _, hhost, ?_⟩
  rfl

end PassEngine.Remote
