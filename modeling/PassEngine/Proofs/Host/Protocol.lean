import PassEngine.Proofs.Host.Merging
import PassEngine.Proofs.Remote.Refinement

namespace PassEngine.Wire

/-- What a party tried to send, whether or not that worked. -/
def attempts (events : List Event) : List Message :=
  events.filterMap fun
    | .sent e _ => some e.body
    | .received _ => none

@[simp]
theorem attempts_nil : attempts [] = [] := rfl

@[simp]
theorem attempts_sent (e : Envelope) (r : Except ProtocolError Unit) (events : List Event) :
    attempts (.sent e r :: events) = e.body :: attempts events := rfl

@[simp]
theorem attempts_received (r : Received) (events : List Event) :
    attempts (.received r :: events) = attempts events := rfl

end PassEngine.Wire

namespace PassEngine.Host

open Wire

def asks (point : Point) (m : Dialect.Module) (r : Except ProtocolError Unit) : Event :=
  .sent { body := .invoke point m } r

def Answered (point : Point) (events : List Event) : Prop :=
  ∃ version payload, .received (.ok ⟨version, .result point payload⟩) ∈ events

/-- What a host may say last, if anything. -/
inductive Farewell : List Message → Prop
  | unsaid : Farewell []
  | goodbye : Farewell [.goodbye]
  | abort {reason : String} : Farewell [.abort reason]

/-- Nothing is asked before the question before it is answered. -/
def TakesTurns (events : List Event) : Prop :=
  ∀ before middle after point m r point' m' r',
    events = before ++ asks point m r :: (middle ++ asks point' m' r' :: after) →
      Answered point middle

/-- A host's part in a session as the protocol has it: the greeting, then invocations, then at most
one farewell. -/
structure FollowsProtocol (config : Config) (events : List Event) : Prop where
  order : ∃ invokes farewell,
    attempts events = .hello config.client dialectVersion :: (invokes ++ farewell) ∧
      (∀ x ∈ invokes, ∃ point m, x = .invoke point m) ∧ Farewell farewell
  takesTurns : TakesTurns events

/-- What can happen after the welcome: questions are answered, until the host stops or one fails. -/
inductive Talk : List Event → Prop
  | ended {events : List Event} (h : Farewell (attempts events)) : Talk events
  | answered {point : Point} {m : Dialect.Module} {version : UInt32} {payload : Payload}
    {events : List Event} (h : Talk events) :
    Talk (asks point m (.ok ()) :: .received (.ok ⟨version, .result point payload⟩) :: events)
  | failed {point : Point} {m : Dialect.Module} {r : Except ProtocolError Unit}
    {events : List Event} (h : Farewell (attempts events)) : Talk (asks point m r :: events)

section Turns

variable {events : List Event} {point : Point} {m : Dialect.Module} {r : Except ProtocolError Unit}

theorem Farewell.asks_notMem (h : Farewell (attempts events)) (point : Point)
    (m : Dialect.Module) (r : Except ProtocolError Unit) : asks point m r ∉ events := by
  intro hmem
  have hinvoke : Message.invoke point m ∈ attempts events :=
    List.mem_filterMap.2 ⟨asks point m r, hmem, rfl⟩
  cases hattempts : attempts events with
  | nil => simp [hattempts] at hinvoke
  | cons x rest =>
    rw [hattempts] at h hinvoke
    cases h <;> simp at hinvoke

theorem TakesTurns.cons {e : Event} (he : ∀ point m r, e ≠ asks point m r)
    (h : TakesTurns events) : TakesTurns (e :: events) := by
  intro before middle after point m r point' m' r' heq
  cases before with
  | nil =>
    obtain ⟨hhead, -⟩ := List.cons.inj heq
    exact absurd hhead (he point m r)
  | cons e' before => exact h before _ _ _ _ _ _ _ _ (List.cons.inj heq).2

theorem TakesTurns.asks (h : TakesTurns events)
    (hanswered : ∀ middle after point' m' r', events = middle ++ asks point' m' r' :: after →
      Answered point middle) : TakesTurns (asks point m r :: events) := by
  intro before middle after p d r point' m' r' heq
  cases before with
  | nil =>
    obtain ⟨hhead, htail⟩ := List.cons.inj heq
    cases hhead
    exact hanswered _ _ _ _ _ htail
  | cons e before => exact h before _ _ _ _ _ _ _ _ (List.cons.inj heq).2

theorem Farewell.takesTurns (h : Farewell (attempts events)) : TakesTurns events := by
  intro before middle after point m r point' m' r' heq
  exact absurd (by simp [heq]) (h.asks_notMem point m r)

theorem Talk.takesTurns (h : Talk events) : TakesTurns events := by
  induction h with
  | ended h => exact h.takesTurns
  | @answered point m version payload events _ ih =>
    refine (ih.cons (by rintro _ _ _ ⟨⟩)).asks fun middle after point' m' r' heq => ?_
    cases middle with
    | nil => cases heq
    | cons e middle =>
      obtain ⟨rfl, -⟩ := List.cons.inj heq
      exact ⟨version, payload, List.mem_cons_self⟩
  | failed h =>
    refine h.takesTurns.asks fun middle after point' m' r' heq => ?_
    exact absurd (by simp [heq]) (h.asks_notMem point' m' r')

theorem Talk.order (h : Talk events) : ∃ invokes farewell,
    attempts events = invokes ++ farewell ∧ (∀ x ∈ invokes, ∃ point m, x = .invoke point m) ∧
      Farewell farewell := by
  induction h with
  | ended h => exact ⟨[], _, rfl, by simp, h⟩
  | @answered point m version payload events _ ih =>
    obtain ⟨invokes, farewell, heq, hinvokes, hfarewell⟩ := ih
    refine ⟨.invoke point m :: invokes, farewell, by simp [Host.asks, heq], ?_, hfarewell⟩
    exact List.forall_mem_cons.2 ⟨⟨point, m, rfl⟩, hinvokes⟩
  | @failed point m r events h =>
    exact ⟨[.invoke point m], _, rfl, by simp, h⟩

end Turns

/-- The call found the protocol broken: by itself, or the server told it so. -/
def Call.Broken (x : Call) : Prop :=
  (∃ e, x.result = .error (.protocol e)) ∨
    ∃ message, x.result = .error (.plugin (.protocol message))

structure Call.RespectsClosure (x : Call) (earlier : List Call) : Prop where
  before : x.before.isClosed = true ↔ ∃ y ∈ earlier, y.Broken
  /-- The session ends here exactly if the protocol breaks here. -/
  closes : x.before.isClosed = false ∧ x.after.isClosed = true ↔ x.Broken
  /-- Only a result that says so has the host believe that the server found the protocol broken. -/
  told : ∀ message, x.result = .error (.plugin (.protocol message)) ↔ ∃ version pass,
    .received (.ok ⟨version, .result x.point (.error .protocol message pass)⟩) ∈ x.events
  /-- Once the session is closed, nothing comes of anything. -/
  dead : x.before.isClosed = true →
    x.result = .error .sessionClosed ∧ x.events = [] ∧ x.after = x.before

namespace Session

section Accept

variable (s : Session) (point : Point) {payload : Payload}

theorem accept_protocol (message : String) (pass : Option String) :
    s.accept point (.error .protocol message pass) =
      (.error (.plugin (.protocol message)),
        { s.report point .error (.protocol message) with isClosed := true }) := rfl

theorem accept_recoverable (h : ¬∃ message pass, payload = .error .protocol message pass) :
    (s.accept point payload).2.isClosed = s.isClosed ∧
      ∀ error, (s.accept point payload).1 = .error error → error.isOfProtocol = false := by
  cases payload with
  | noChange => simp [accept]
  | module returned =>
    simp only [accept]
    split
    · simp
    · exact ⟨isClosed_recover _ _, fun error => isOfProtocol_recover (by rintro ⟨⟩)⟩
  | error code message pass =>
    cases code with
    | protocol => exact absurd ⟨message, pass, rfl⟩ h
    | _ => exact ⟨isClosed_recover _ _, fun error => isOfProtocol_recover (by rintro ⟨⟩)⟩

variable (payload)

theorem accept_ne_protocol (e : ProtocolError) :
    (s.accept point payload).1 ≠ .error (.protocol e) := by
  by_cases hpayload : ∃ message pass, payload = .error .protocol message pass
  · obtain ⟨message, pass, rfl⟩ := hpayload
    simp [accept_protocol]
  · intro h
    cases (accept_recoverable s point hpayload).2 _ h

theorem accept_eq_protocol_iff (message : String) :
    (s.accept point payload).1 = .error (.plugin (.protocol message)) ↔
      ∃ pass, payload = .error .protocol message pass := by
  by_cases hpayload : ∃ message pass, payload = .error .protocol message pass
  · obtain ⟨message', pass, rfl⟩ := hpayload
    simp [accept_protocol]
  · constructor
    · intro h
      cases (accept_recoverable s point hpayload).2 _ h
    · rintro ⟨pass, h⟩
      exact absurd ⟨message, pass, h⟩ hpayload

theorem isClosed_accept : (s.accept point payload).2.isClosed = true ↔ s.isClosed = true ∨
    ∃ message, (s.accept point payload).1 = .error (.plugin (.protocol message)) := by
  by_cases hpayload : ∃ message pass, payload = .error .protocol message pass
  · obtain ⟨message, pass, rfl⟩ := hpayload
    simp [accept_protocol]
  · simp [accept_recoverable s point hpayload, accept_eq_protocol_iff, hpayload]

end Accept

variable {σ : Type} (c : Channel σ)

section Call

variable {s : Session} (point : Point) (peer : σ)

theorem transcript_giveUp (e : ProtocolError) :
    Farewell (attempts ((s.giveUp point e).transcript c peer)) ∧
      ¬Answered point ((s.giveUp point e).transcript c peer) := by
  rw [giveUp]
  split
  · exact ⟨.abort, by simp [Answered, Dialogue.transcript_bind]⟩
  · exact ⟨.unsaid, by simp [Answered]⟩

theorem call_of_closed (h : s.isClosed = true) :
    s.call c point peer = ⟨point, s, [], .error .sessionClosed, s⟩ := by
  simp only [call, reach, if_pos h]
  rfl

/-- All that can come of a point in an open session: the server is not asked, or it answers, or the
protocol breaks. -/
theorem call_cases_of_open (h : s.isClosed = false) :
    ((s.call c point peer).events = [] ∧ (s.call c point peer).after.isClosed = false ∧
      ∀ error, (s.call c point peer).result = .error error → error.isOfProtocol = false) ∨
    (∃ m version payload, (s.call c point peer).events =
        [asks point m (.ok ()), .received (.ok ⟨version, .result point payload⟩)] ∧
      (s.call c point peer).result = (s.accept point payload).1 ∧
      (s.call c point peer).after = (s.accept point payload).2) ∨
    (∃ m r rest e, (s.call c point peer).events = asks point m r :: rest ∧
      Farewell (attempts rest) ∧ ¬Answered point rest ∧
      (s.call c point peer).result = .error (.protocol e) ∧
      (s.call c point peer).after.isClosed = true) := by
  have hopen : ¬s.isClosed = true := by simp [h]
  simp only [call, reach, if_neg hopen]
  cases hlower : s.module.lower with
  | error e =>
    refine .inl ⟨rfl, (isClosed_recover _ _).trans h, fun error herror => ?_⟩
    exact isOfProtocol_recover (by rintro ⟨⟩) herror
  | ok m =>
    simp only [Dialogue.run_bind, Dialogue.transcript_bind]
    rcases invoke_cases c peer point m with ⟨version, payload, hrun, hevents⟩ | ⟨e, hrun, hevents⟩
    · refine .inr (.inl ⟨m, version, payload, ?_, ?_, ?_⟩)
      · simp [hrun, hevents, asks]
      · simp [hrun]
      · simp [hrun]
    · simp only [hrun, run_giveUp]
      obtain ⟨hfarewell, hanswered⟩ :=
        transcript_giveUp c (s := s) point ((invoke point m).run c peer).2 e
      rcases hevents with ⟨e', hevents⟩ | ⟨r, hevents, hr⟩
      · rw [hevents]
        exact .inr (.inr ⟨m, .error e', _, e, rfl, hfarewell, hanswered, rfl, trivial⟩)
      · rw [hevents]
        refine .inr (.inr ⟨m, .ok (), .received r :: _, e, rfl, hfarewell, ?_, rfl, trivial⟩)
        rintro ⟨version, payload, hmem⟩
        rcases List.mem_cons.1 hmem with heq | hmem
        · cases heq
          exact hr version payload rfl
        · exact hanswered ⟨version, payload, hmem⟩

/-- A call closes its session exactly if it finds the protocol broken. -/
theorem closes_call :
    (s.isClosed = false ∧ (s.call c point peer).after.isClosed = true) ↔
      (s.call c point peer).Broken := by
  cases hclosed : s.isClosed with
  | true => simp [call_of_closed c point peer hclosed, Call.Broken]
  | false =>
    simp only [true_and, Call.Broken]
    rcases call_cases_of_open c point peer hclosed with ⟨-, hafter, hresult⟩ |
      ⟨m, version, payload, -, hresult, hafter⟩ | ⟨m, r, rest, e, -, -, -, hresult, hafter⟩
    · simp only [hafter, Bool.false_eq_true, false_iff]
      rintro (⟨e, he⟩ | ⟨message, he⟩)
      · cases hresult _ he
      · cases hresult _ he
    · simp [hafter, hresult, isClosed_accept, hclosed, accept_ne_protocol]
    · simp [hafter, hresult]

theorem isClosed_call : (s.call c point peer).after.isClosed = true ↔
    s.isClosed = true ∨ (s.call c point peer).Broken := by
  rw [← closes_call]
  cases hclosed : s.isClosed with
  | true => simp [call_of_closed c point peer hclosed, hclosed]
  | false => simp

theorem told_call (message : String) :
    (s.call c point peer).result = .error (.plugin (.protocol message)) ↔ ∃ version pass,
      .received (.ok ⟨version, .result point (.error .protocol message pass)⟩) ∈
        (s.call c point peer).events := by
  cases hclosed : s.isClosed with
  | true => simp [call_of_closed c point peer hclosed]
  | false =>
    rcases call_cases_of_open c point peer hclosed with ⟨hevents, -, hresult⟩ |
      ⟨m, version, payload, hevents, hresult, -⟩ |
      ⟨m, r, rest, e, hevents, -, hanswered, hresult, -⟩
    · simp only [hevents, List.not_mem_nil, exists_false, iff_false]
      intro he
      cases hresult _ he
    · rw [hresult, accept_eq_protocol_iff]
      simp [hevents, asks, eq_comm]
    · simp only [hresult, hevents]
      refine ⟨nofun, ?_⟩
      rintro ⟨version, pass, hmem⟩
      rcases List.mem_cons.1 hmem with heq | hmem
      · cases heq
      · exact absurd ⟨version, _, hmem⟩ hanswered

end Call

section Calls

variable {s : Session} {peer : σ} {points : List Point}

theorem calls_of_closed (h : s.isClosed = true) (peer : σ) (points : List Point) :
    (s.calls c peer points).1.flatMap (·.events) = [] ∧ (s.calls c peer points).2 = s := by
  induction points generalizing peer with
  | nil => exact ⟨rfl, rfl⟩
  | cons p rest ih =>
    simp only [calls, call_of_closed c p peer h]
    exact ih ((s.reach p).run c peer).2

theorem isClosed_calls : (s.calls c peer points).2.isClosed = true ↔
    s.isClosed = true ∨ ∃ x ∈ (s.calls c peer points).1, x.Broken := by
  induction points generalizing s peer with
  | nil => simp [calls]
  | cons p rest ih =>
    simp only [calls, ih, isClosed_call, List.exists_mem_cons_iff, or_assoc]

theorem isClosed_before {earlier later : List Call} {x : Call}
    (h : (s.calls c peer points).1 = earlier ++ x :: later) :
    x.before.isClosed = true ↔ s.isClosed = true ∨ ∃ y ∈ earlier, y.Broken := by
  induction points generalizing s peer earlier with
  | nil => simp [calls] at h
  | cons p rest ih =>
    cases earlier with
    | nil =>
      obtain ⟨rfl, -⟩ := List.cons.inj h
      simp [call]
    | cons y earlier =>
      obtain ⟨rfl, hrest⟩ := List.cons.inj h
      rw [ih hrest, isClosed_call, List.exists_mem_cons_iff, or_assoc]

theorem respectsClosure_of_calls (hopen : s.isClosed = false) {earlier later : List Call} {x : Call}
    (h : (s.calls c peer points).1 = earlier ++ x :: later) : x.RespectsClosure earlier := by
  have hmem : x ∈ (s.calls c peer points).1 := by simp [h]
  have hbefore := isClosed_before c h
  obtain ⟨s', point, peer', rfl⟩ := exists_call_of_mem_calls c hmem
  exact {
    before := by simpa [hopen] using hbefore
    closes := closes_call c point peer'
    told := told_call c point peer'
    dead := fun hclosed => by
      have hclosed : s'.isClosed = true := hclosed
      rw [call_of_closed c point peer' hclosed]
      exact ⟨rfl, rfl, rfl⟩ }

theorem transcript_finish (peer : σ) :
    s.finish.transcript c peer =
      if s.isClosed then []
      else [.sent { body := .goodbye } (c.send peer { body := .goodbye }).1] := by
  cases hclosed : s.isClosed <;> simp [finish, hclosed, Dialogue.transcript_bind]

theorem talk_calls (last : σ) : Talk ((s.calls c peer points).1.flatMap (·.events) ++
    (s.calls c peer points).2.finish.transcript c last) := by
  induction points generalizing s peer with
  | nil =>
    refine .ended ?_
    simp only [calls, transcript_finish]
    split
    · exact .unsaid
    · exact .goodbye
  | cons p rest ih =>
    simp only [calls, List.flatMap_cons, List.append_assoc]
    cases hclosed : s.isClosed with
    | true =>
      rw [call_of_closed c p peer hclosed]
      exact ih
    | false =>
      rcases call_cases_of_open c p peer hclosed with ⟨hevents, -, -⟩ |
        ⟨m, version, payload, hevents, -, -⟩ | ⟨m, r, said, e, hevents, hsaid, -, -, hafter⟩
      · rw [hevents]
        exact ih
      · rw [hevents]
        exact .answered ih
      · -- What comes after is nothing, for the session is closed.
        obtain ⟨hlater, hlast⟩ := calls_of_closed c hafter ((s.reach p).run c peer).2 rest
        rw [hevents, hlater, hlast, transcript_finish, if_pos hafter, List.append_nil,
          List.append_nil]
        exact .failed hsaid

theorem run_reachEach :
    ((s.reachEach points).run c peer).1.2 = (s.calls c peer points).2 := by
  induction points generalizing s peer with
  | nil => rfl
  | cons p rest ih =>
    simp only [reachEach, Dialogue.run_bind, calls]
    exact ih

theorem transcript_reachEach :
    (s.reachEach points).transcript c peer = (s.calls c peer points).1.flatMap (·.events) := by
  induction points generalizing s peer with
  | nil => rfl
  | cons p rest ih =>
    simp only [reachEach, Dialogue.transcript_bind, calls, List.flatMap_cons,
      Dialogue.transcript_pure, List.append_nil]
    exact congrArg _ ih

end Calls

section Attend

variable (peer : σ) (config : Config) (m : Native.Module) (points : List Point)

theorem connect_cases :
    (∃ r, (connect config m).transcript c peer =
        [.sent { body := .hello config.client dialectVersion } r] ∨
      ∃ heard, (connect config m).transcript c peer =
        [.sent { body := .hello config.client dialectVersion } r, .received heard]) ∧
    ∀ s, ((connect config m).run c peer).1 = .ok s → s.isClosed = false := by
  simp only [connect, Dialogue.run_bind, Dialogue.transcript_bind, Dialogue.run_say,
    Dialogue.transcript_say]
  cases (c.send peer { body := .hello config.client dialectVersion }).1 with
  | error e => exact ⟨⟨.error e, .inl rfl⟩, nofun⟩
  | ok =>
    simp only [Dialogue.run_bind, Dialogue.transcript_bind, Dialogue.run_listen,
      Dialogue.transcript_listen]
    generalize (c.send peer { body := .hello config.client dialectVersion }).2 = peer
    cases (c.receive peer).1 with
    | error e => exact ⟨⟨.ok (), .inr ⟨.error e, rfl⟩⟩, nofun⟩
    | ok envelope =>
      obtain ⟨version, body⟩ := envelope
      cases body with
      | welcome server passes =>
        refine ⟨⟨.ok (), .inr ⟨_, rfl⟩⟩, fun s hs => ?_⟩
        cases hs
        rfl
      | _ => exact ⟨⟨.ok (), .inr ⟨_, rfl⟩⟩, nofun⟩

theorem followsProtocol_of_talk {events : List Event} (h : Talk events) :
    FollowsProtocol config ((connect config m).transcript c peer ++ events) := by
  obtain ⟨invokes, farewell, horder, hinvokes, hfarewell⟩ := h.order
  obtain ⟨⟨r, htranscript | ⟨heard, htranscript⟩⟩, -⟩ := connect_cases c peer config m
  · rw [htranscript]
    refine ⟨⟨invokes, farewell, ?_, hinvokes, hfarewell⟩, h.takesTurns.cons (by rintro _ _ _ ⟨⟩)⟩
    simp [horder]
  · rw [htranscript]
    refine ⟨⟨invokes, farewell, ?_, hinvokes, hfarewell⟩,
      (h.takesTurns.cons (by rintro _ _ _ ⟨⟩)).cons (by rintro _ _ _ ⟨⟩)⟩
    simp [horder]

theorem transcript_attend {s : Session} (h : ((connect config m).run c peer).1 = .ok s) :
    ∃ last, (attend config m points).transcript c peer = (connect config m).transcript c peer ++
      ((s.calls c ((connect config m).run c peer).2 points).1.flatMap (·.events) ++
        (s.calls c ((connect config m).run c peer).2 points).2.finish.transcript c last) := by
  simp only [attend, Dialogue.transcript_bind, h, transcript_reachEach, run_reachEach,
    Dialogue.transcript_pure, List.append_nil]
  exact ⟨_, rfl⟩

theorem followsProtocol_attend :
    FollowsProtocol config ((attend config m points).transcript c peer) := by
  cases hconnect : ((connect config m).run c peer).1 with
  | error e =>
    have htranscript : (attend config m points).transcript c peer =
        (connect config m).transcript c peer ++ [] := by
      rw [attend, Dialogue.transcript_bind, hconnect]
      rfl
    rw [htranscript]
    exact followsProtocol_of_talk c peer config m (.ended .unsaid)
  | ok s =>
    obtain ⟨last, htranscript⟩ := transcript_attend c peer config m points hconnect
    rw [htranscript]
    exact followsProtocol_of_talk c peer config m (talk_calls c last)

/-- Whatever the peer does, a host that greets it, comes to points and takes its leave keeps to the
protocol. Its session is closed by the calls that find the protocol broken and by no others; from
then on nothing is said, heard or changed, and no leave is taken. -/
theorem attend_keeps_protocol :
    FollowsProtocol config ((attend config m points).transcript c peer) ∧
    ∀ s, ((connect config m).run c peer).1 = .ok s →
      let (calls, last) := s.calls c ((connect config m).run c peer).2 points
      (∀ earlier x later, calls = earlier ++ x :: later → x.RespectsClosure earlier) ∧
      (last.isClosed = true ↔ ∃ x ∈ calls, x.Broken) ∧
      ∃ peer', (attend config m points).transcript c peer = (connect config m).transcript c peer ++
          (calls.flatMap (·.events) ++ last.finish.transcript c peer') ∧
        (last.isClosed = true → last.finish.transcript c peer' = []) := by
  refine ⟨followsProtocol_attend c peer config m points, fun s hs => ?_⟩
  have hopen := (connect_cases c peer config m).2 s hs
  obtain ⟨peer', htranscript⟩ := transcript_attend c peer config m points hs
  refine ⟨fun _ _ _ => respectsClosure_of_calls c hopen, ?_, peer', htranscript, fun hclosed => ?_⟩
  · simp [isClosed_calls, hopen]
  · rw [transcript_finish, if_pos hclosed]

end Attend

end Session

end PassEngine.Host
