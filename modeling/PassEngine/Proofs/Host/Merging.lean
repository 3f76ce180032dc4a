import PassEngine.Host.Session
import PassEngine.Proofs.Except
import PassEngine.Proofs.Wire.Transcript

namespace PassEngine.Host.Session

open Wire

variable {σ : Type} (c : Channel σ) (peer : σ)

/-- An invocation either is answered by the result for its point, or fails, and then no such result
has come. -/
theorem invoke_cases (point : Point) (m : Dialect.Module) :
    (∃ version payload, ((invoke point m).run c peer).1 = .ok payload ∧
      (invoke point m).transcript c peer =
        [.sent { body := .invoke point m } (.ok ()),
          .received (.ok ⟨version, .result point payload⟩)]) ∨
    (∃ e, ((invoke point m).run c peer).1 = .error e ∧
      ((∃ e', (invoke point m).transcript c peer =
        [.sent { body := .invoke point m } (.error e')]) ∨
      ∃ r, (invoke point m).transcript c peer =
        [.sent { body := .invoke point m } (.ok ()), .received r] ∧
        ∀ version payload, r ≠ .ok ⟨version, .result point payload⟩)) := by
  simp only [invoke, Dialogue.run_bind, Dialogue.transcript_bind, Dialogue.run_say,
    Dialogue.transcript_say]
  cases hsend : (c.send peer { body := .invoke point m }).1 with
  | error e => exact .inr ⟨e, rfl, .inl ⟨e, rfl⟩⟩
  | ok =>
    simp only [Dialogue.run_bind, Dialogue.transcript_bind, Dialogue.run_listen,
      Dialogue.transcript_listen]
    -- From here on only the peer after the question matters.
    generalize (c.send peer { body := .invoke point m }).2 = peer
    cases hreceive : (c.receive peer).1 with
    | error e => exact .inr ⟨e, rfl, .inr ⟨_, rfl, by simp⟩⟩
    | ok envelope =>
      obtain ⟨version, body⟩ := envelope
      cases body with
      | result place payload =>
        by_cases hplace : place = point
        · subst hplace
          exact .inl ⟨version, payload, by simp, by simp⟩
        · refine .inr ⟨.unexpectedMessage "result" s!"result for {place.name}", ?_,
            .inr ⟨.ok ⟨version, .result place payload⟩, ?_, ?_⟩⟩
          · simp [hplace]
          · simp [hplace]
          · simp [hplace]
      | _ => exact .inr ⟨_, rfl, .inr ⟨_, rfl, by simp⟩⟩

theorem verify_of_raise {r : Dialect.Module} {n : Native.Module} (h : r.raise = .ok n) :
    r.verify = .ok () := by
  obtain ⟨_, hverify, -⟩ := bind_eq_ok_iff.1 h
  exact mapError_eq_ok_iff.1 hverify

theorem module_recover (s : Session) (point : Point) (e : PluginError) (outcome : Outcome) :
    (s.recover point e outcome).2.module = s.module := by
  rw [recover]
  split <;> rfl

theorem recover_ne_applied (s : Session) (point : Point) (e : PluginError) {outcome : Outcome}
    (h : outcome ≠ .applied) : (s.recover point e outcome).1 ≠ .ok .applied := by
  rw [recover]
  split <;> simp [h]

/-- The module is replaced exactly if the payload holds one that can be raised. -/
theorem accept_eq_applied_iff (s : Session) (point : Point) (payload : Payload) :
    (s.accept point payload).1 = .ok .applied ↔ ∃ r n, payload = .module r ∧ r.raise = .ok n ∧
      (s.accept point payload).2.module = n := by
  cases payload with
  | noChange => simp [accept]
  | module r =>
    simp only [accept, Payload.module.injEq]
    cases hraise : r.raise with
    | ok n => exact ⟨fun _ => ⟨r, n, rfl, hraise, rfl⟩, fun _ => rfl⟩
    | error e =>
      refine ⟨fun h => absurd h (recover_ne_applied s point _ (by simp)), ?_⟩
      rintro ⟨_, n, rfl, hn, -⟩
      simp [hraise] at hn
  | error code message pass =>
    simp only [accept, reduceCtorEq, false_and, exists_false, iff_false]
    split
    · exact recover_ne_applied s point _ (by simp)
    · simp

theorem module_accept {s : Session} {point : Point} {payload : Payload}
    (h : (s.accept point payload).1 ≠ .ok .applied) :
    (s.accept point payload).2.module = s.module := by
  cases payload with
  | noChange => rfl
  | module r =>
    simp only [accept] at h ⊢
    cases hraise : r.raise with
    | ok n => simp [hraise] at h
    | error e => exact module_recover s point _ _
  | error code message pass =>
    simp only [accept]
    split
    · exact module_recover s point _ _
    · rfl

theorem run_giveUp (s : Session) (point : Point) (e : ProtocolError) :
    ((s.giveUp point e).run c peer).1 =
      (.error (.protocol e), { s.report point .error e.toPluginError with isClosed := true }) := by
  rw [giveUp]
  split <;> rfl

end PassEngine.Host.Session

namespace PassEngine.Host

open Wire

/-- A time that the host came to a point, with all that happened then. -/
structure Call where
  point : Point
  before : Session
  events : List Event
  result : Except HostError Outcome
  after : Session

/-- The server answered the very question that the call asked with a valid module, and the host's
module is now what becomes of that one. -/
def Call.Merged (call : Call) : Prop :=
  ∃ m version r n, call.before.module.lower = .ok m ∧
    call.events = [.sent { body := .invoke call.point m } (.ok ()),
      .received (.ok ⟨version, .result call.point (.module r)⟩)] ∧
    r.verify = .ok () ∧ r.raise = .ok n ∧ call.after.module = n

namespace Session

variable {σ : Type} (c : Channel σ)

def call (s : Session) (point : Point) (peer : σ) : Call where
  point
  before := s
  events := (s.reach point).transcript c peer
  result := ((s.reach point).run c peer).1.1
  after := ((s.reach point).run c peer).1.2

def calls (s : Session) (peer : σ) : List Point → List Call × Session
  | [] => ([], s)
  | p :: rest =>
    let first := s.call c p peer
    let (later, last) := first.after.calls ((s.reach p).run c peer).2 rest
    (first :: later, last)

/-- All that can happen at a point: the server is not asked, or it answers with the result for that
point, or the protocol fails. -/
theorem call_cases (s : Session) (point : Point) (peer : σ) :
    ((s.call c point peer).events = [] ∧ (s.call c point peer).result ≠ .ok .applied ∧
      (s.call c point peer).after.module = s.module) ∨
    (∃ m version payload, s.module.lower = .ok m ∧
      (s.call c point peer).events = [.sent { body := .invoke point m } (.ok ()),
        .received (.ok ⟨version, .result point payload⟩)] ∧
      (s.call c point peer).result = (s.accept point payload).1 ∧
      (s.call c point peer).after = (s.accept point payload).2) ∨
    ((∀ m version payload, (s.call c point peer).events ≠
        [.sent { body := .invoke point m } (.ok ()),
          .received (.ok ⟨version, .result point payload⟩)]) ∧
      (∃ e, (s.call c point peer).result = .error (.protocol e)) ∧
      (s.call c point peer).after.module = s.module) := by
  simp only [call, reach]
  by_cases hclosed : s.isClosed = true
  · simp only [if_pos hclosed]
    exact .inl ⟨rfl, by simp, rfl⟩
  simp only [if_neg hclosed]
  cases hlower : s.module.lower with
  | error e =>
    exact .inl ⟨rfl, recover_ne_applied s point _ (by simp), module_recover s point _ _⟩
  | ok m =>
    simp only [Dialogue.run_bind, Dialogue.transcript_bind]
    rcases invoke_cases c peer point m with ⟨version, payload, hrun, hevents⟩ | ⟨e, hrun, hevents⟩
    · refine .inr (.inl ⟨m, version, payload, rfl, ?_, ?_, ?_⟩)
      · simp [hrun, hevents]
      · simp [hrun]
      · simp [hrun]
    · refine .inr (.inr ⟨fun m' version payload h => ?_, ⟨e, ?_⟩, ?_⟩)
      -- Either the question was not sent, or what came is not the result.
      · rcases hevents with ⟨e', hevents⟩ | ⟨r, hevents, hr⟩
        · simp [hrun, hevents] at h
        · simp only [hrun, hevents, List.cons_append, List.nil_append, List.cons.injEq,
            Event.received.injEq] at h
          exact hr version payload h.2.1
      · simp [hrun, run_giveUp]
      · simp [hrun, run_giveUp, report]

theorem call_eq_applied_iff_merged (s : Session) (point : Point) (peer : σ) :
    (s.call c point peer).result = .ok .applied ↔ (s.call c point peer).Merged := by
  rcases s.call_cases c point peer with ⟨hevents, hresult, -⟩ |
    ⟨m, version, payload, hlower, hevents, hresult, hafter⟩ | ⟨hevents, ⟨e, hresult⟩, -⟩
  · refine ⟨fun h => absurd h hresult, ?_⟩
    rintro ⟨_, _, _, _, -, h, -⟩
    simp [hevents] at h
  · rw [hresult, accept_eq_applied_iff]
    constructor
    · rintro ⟨r, n, rfl, hraise, hn⟩
      exact ⟨m, version, r, n, hlower, hevents, verify_of_raise hraise, hraise, hafter ▸ hn⟩
    · rintro ⟨m', version', r, n, -, h, -, hraise, hn⟩
      rw [hevents] at h
      simp only [List.cons.injEq, Event.received.injEq, Except.ok.injEq, Envelope.mk.injEq,
        Message.result.injEq, and_true] at h
      exact ⟨r, n, h.2.2.2, hraise, hafter ▸ hn⟩
  · refine ⟨fun h => by simp [hresult] at h, ?_⟩
    rintro ⟨m, version, r, n, -, h, -⟩
    exact absurd h (hevents m version (.module r))

theorem module_call {s : Session} {point : Point} {peer : σ}
    (h : (s.call c point peer).result ≠ .ok .applied) :
    (s.call c point peer).after.module = s.module := by
  rcases s.call_cases c point peer with ⟨-, -, hmodule⟩ |
    ⟨m, version, payload, -, -, hresult, hafter⟩ | ⟨-, -, hmodule⟩
  · exact hmodule
  · rw [hresult] at h
    rw [hafter, module_accept h]
  · exact hmodule

theorem exists_call_of_mem_calls {s : Session} {peer : σ} {points : List Point} {x : Call}
    (hx : x ∈ (s.calls c peer points).1) :
    ∃ (s' : Session) (point : Point) (peer' : σ), x = s'.call c point peer' := by
  induction points generalizing s peer with
  | nil => cases hx
  | cons p rest ih =>
    rcases List.mem_cons.1 hx with rfl | hx
    · exact ⟨s, p, peer, rfl⟩
    · exact ih hx

theorem module_calls (s : Session) (peer : σ) (points : List Point) :
    (s.calls c peer points).2.module = s.module ∨
      ∃ x ∈ (s.calls c peer points).1, x.Merged ∧
        (s.calls c peer points).2.module = x.after.module := by
  induction points generalizing s peer with
  | nil => exact .inl rfl
  | cons p rest ih =>
    rcases ih (s.call c p peer).after ((s.reach p).run c peer).2 with hsame | ⟨x, hx, hmerged, heq⟩
    · by_cases happlied : (s.call c p peer).result = .ok .applied
      · exact .inr ⟨s.call c p peer, List.mem_cons_self,
          (s.call_eq_applied_iff_merged c p peer).1 happlied, hsame⟩
      · exact .inl (hsame.trans (module_call c happlied))
    · exact .inr ⟨x, List.mem_cons_of_mem _ hx, hmerged, heq⟩

/-- Whatever the peer does and however often the host comes to a point, its module is replaced by
the calls that tell so and by no others, each time by what becomes of a valid module that answers
the call's own question. So in the end it is the first one or that of such a call. -/
theorem module_replaced_iff_applied (s : Session) (peer : σ) (points : List Point) :
    (∀ x ∈ (s.calls c peer points).1, (x.result = .ok .applied ↔ x.Merged) ∧
      (x.result ≠ .ok .applied → x.after.module = x.before.module)) ∧
    ((s.calls c peer points).2.module = s.module ∨ ∃ x ∈ (s.calls c peer points).1, x.Merged ∧
      (s.calls c peer points).2.module = x.after.module) := by
  refine ⟨fun x hx => ?_, s.module_calls c peer points⟩
  obtain ⟨s', point, peer', rfl⟩ := exists_call_of_mem_calls c hx
  exact ⟨s'.call_eq_applied_iff_merged c point peer', module_call c⟩

end Session

end PassEngine.Host
