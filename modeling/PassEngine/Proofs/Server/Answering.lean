import PassEngine.Proofs.Host.Local
import PassEngine.Server.Session

namespace PassEngine.Server

open Wire

def isInvoke : Received → Bool
  | .ok ⟨_, .invoke ..⟩ => true
  | _ => false

/-- A message answers an invocation: it is a result for the same point, and does not say that the
protocol is broken. -/
inductive Answers : Received → Message → Prop
  | result {version : UInt32} {point : Point} {m : Dialect.Module} {payload : Payload}
    (h : ∀ message pass, payload ≠ .error .protocol message pass) :
    Answers (.ok ⟨version, .invoke point m⟩) (.result point payload)

/-- How a session that was opened ends over the first thing received that is no invocation, if
there is one. -/
inductive EndsOver : Option Received → Except ProtocolError SessionEnd → Prop
  | gone : EndsOver none (.ok .disconnected)
  | disconnected : EndsOver (some (.error .disconnected)) (.ok .disconnected)
  | failed {e : ProtocolError} (h : e ≠ .disconnected) : EndsOver (some (.error e)) (.error e)
  | goodbye {version : UInt32} : EndsOver (some (.ok ⟨version, .goodbye⟩)) (.ok .closed)
  | abort {version : UInt32} {reason : String} :
    EndsOver (some (.ok ⟨version, .abort reason⟩)) (.ok .aborted)
  | unexpected {version : UInt32} {m : Message} (hinvoke : ∀ point d, m ≠ .invoke point d)
    (habort : ∀ reason, m ≠ .abort reason) (hgoodbye : m ≠ .goodbye) :
    EndsOver (some (.ok ⟨version, m⟩)) (.error (.unexpectedMessage "invoke" m.kind))

/-- All that can happen in a session, from what is received to what is sent and how it ends: nobody
greets the server, or somebody does in another dialect, or the invocations that follow the greeting
are answered one by one. -/
inductive Conversation (roster : Roster) :
    List Received → List Message → Except ProtocolError SessionEnd → Prop
  | gone : Conversation roster [] [] (.ok .disconnected)
  | lost {e : ProtocolError} {rest : List Received} :
    Conversation roster (.error e :: rest) [] (Session.ending e)
  | ungreeted {version : UInt32} {m : Message} {rest : List Received}
    (h : ∀ client found, m ≠ .hello client found) :
    Conversation roster (.ok ⟨version, m⟩ :: rest) [] (.error (.unexpectedMessage "hello" m.kind))
  | refused {version found : UInt32} {client reason : String} {rest : List Received}
    (h : found ≠ dialectVersion) :
    Conversation roster (.ok ⟨version, .hello client found⟩ :: rest) [.abort reason]
      (.error (.versionMismatch dialectVersion found))
  | served {version : UInt32} {client : String} {rest : List Received} {results : List Message}
    {result : Except ProtocolError SessionEnd}
    (hresults : List.Forall₂ Answers (rest.takeWhile isInvoke) results)
    (hend : EndsOver (rest.dropWhile isInvoke).head? result) :
    Conversation roster (.ok ⟨version, .hello client dialectVersion⟩ :: rest)
      (.welcome name roster.describe :: results) result

namespace Session

theorem endsOver_ending (e : ProtocolError) : EndsOver (some (.error e)) (ending e) := by
  by_cases he : e = .disconnected
  · subst he
    exact .disconnected
  · have hending : ending e = .error e := by
      cases e with
      | disconnected => exact absurd rfl he
      | _ => rfl
    rw [hending]
    exact .failed he

/-- A scheduler that nobody aborted never has the server speak of a broken protocol. -/
theorem payload_ne_protocol {outcome : Except SchedulerError BatchOutcome}
    (h : outcome ≠ .error .aborted) (message : String) (pass : Option String) :
    payload outcome ≠ .error .protocol message pass := by
  cases outcome with
  | ok outcome => cases outcome <;> simp [payload]
  | error e =>
    cases e with
    | aborted => exact absurd rfl h
    | malformedInput => simp [payload]

section Run

variable {send : Message → Except ProtocolError Unit}

/-- What was sent is not taken back over what comes later. -/
theorem sent_run_prefix (s : Session) (received more : List Received) :
    (s.run send received).1 <+: (s.run send (received ++ more)).1 := by
  induction received generalizing s with
  | nil => exact List.nil_prefix
  | cons r rest ih =>
    rw [List.cons_append, run, run]
    cases deliver send (s.react r) with
    | reply m next => exact List.cons_prefix_cons.2 ⟨rfl, ih next⟩
    | stop last result => exact List.prefix_rfl

variable (hsend : ∀ m, send m = .ok ())

include hsend

theorem deliver_eq_self (r : Reaction) : deliver send r = r := by
  cases r with
  | reply m next => simp [deliver, Reaction.message?, hsend]
  | stop last result => cases last <;> simp [deliver, Reaction.message?, hsend]

theorem run_cons_of_reply {s next : Session} {r : Received} {m : Message}
    (h : s.react r = .reply m next) (rest : List Received) :
    s.run send (r :: rest) = (m :: (next.run send rest).1, (next.run send rest).2) := by
  rw [run, deliver_eq_self hsend, h]

theorem run_cons_of_stop {s : Session} {r : Received} {last : Option Message}
    {result : Except ProtocolError SessionEnd} (h : s.react r = .stop last result)
    (rest : List Received) : s.run send (r :: rest) = (last.toList, result) := by
  rw [run, deliver_eq_self hsend, h]

/-- After the greeting there is a result for each invocation, until something else comes. -/
theorem answers_run {scheduler : Scheduler} (hidle : scheduler.state = .idle)
    (received : List Received) :
    List.Forall₂ Answers (received.takeWhile isInvoke) ((serving scheduler).run send received).1 ∧
    EndsOver (received.dropWhile isInvoke).head? ((serving scheduler).run send received).2 := by
  -- Between two invocations the scheduler is idle again.
  induction received generalizing scheduler with
  | nil => exact ⟨.nil, .gone⟩
  | cons r rest ih =>
    cases r with
    | error e =>
      rw [run_cons_of_stop hsend rfl]
      exact ⟨.nil, endsOver_ending e⟩
    | ok envelope =>
      obtain ⟨version, body⟩ := envelope
      cases body with
      | invoke point m =>
        rw [run_cons_of_reply hsend rfl]
        obtain ⟨hresults, hend⟩ := ih (Scheduler.state_dispatch hidle point m)
        have hpayload := payload_ne_protocol (Scheduler.dispatch_ne_aborted hidle point m)
        exact ⟨.cons (.result hpayload) hresults, hend⟩
      | goodbye =>
        rw [run_cons_of_stop hsend rfl]
        exact ⟨.nil, .goodbye⟩
      | abort reason =>
        rw [run_cons_of_stop hsend rfl]
        exact ⟨.nil, .abort⟩
      | _ =>
        rw [run_cons_of_stop hsend rfl]
        exact ⟨.nil, .unexpected nofun nofun nofun⟩

theorem conversation_greeting (roster : Roster) (received : List Received) :
    Conversation roster received ((greeting roster).run send received).1
      ((greeting roster).run send received).2 := by
  cases received with
  | nil => exact .gone
  | cons r rest =>
    cases r with
    | error e =>
      rw [run_cons_of_stop hsend rfl]
      exact .lost
    | ok envelope =>
      obtain ⟨version, body⟩ := envelope
      cases body with
      | hello client found =>
        by_cases hversion : found = dialectVersion
        · subst hversion
          rw [run_cons_of_reply hsend rfl]
          have hidle : (Scheduler.ofRoster roster).state = .idle := rfl
          obtain ⟨hresults, hend⟩ := answers_run hsend hidle rest
          exact .served hresults hend
        · have hreact : ∃ reason, (greeting roster).react (.ok ⟨version, .hello client found⟩) =
              .stop (some (.abort reason)) (.error (.versionMismatch dialectVersion found)) :=
            ⟨_, if_neg hversion⟩
          obtain ⟨reason, hreact⟩ := hreact
          rw [run_cons_of_stop hsend hreact]
          exact .refused hversion
      | _ =>
        rw [run_cons_of_stop hsend rfl]
        exact .ungreeted nofun

end Run

/-- A server to which the connection lets it send says nothing but what its host asks for: a welcome
to a greeting, one result to each invocation after it, in order, and a refusal to a host of another
dialect. As nothing is taken back over what comes later, that goes for a host that never stops as
well. -/
theorem run_answers_invokes (roster : Roster) (received more : List Received) :
    Conversation roster received ((greeting roster).run (fun _ => .ok ()) received).1
      ((greeting roster).run (fun _ => .ok ()) received).2 ∧
    ((greeting roster).run (fun _ => .ok ()) received).1 <+:
      ((greeting roster).run (fun _ => .ok ()) (received ++ more)).1 :=
  ⟨conversation_greeting (fun _ => rfl) roster received, sent_run_prefix _ received more⟩

end Session

end PassEngine.Server
