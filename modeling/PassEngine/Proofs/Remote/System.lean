import PassEngine.Proofs.Wire.Codec
import PassEngine.Server.Session
import PassEngine.Wire.Dialogue

namespace PassEngine.Remote

open Wire
open Server (Reaction SessionEnd)

/-- Whether a receiver that waits need not wait any longer: there is a frame, or there will be
none. -/
def isReady (p : Pipe) : Bool :=
  !p.frames.isEmpty || p.senderGone

section Parties

variable {α : Type}

/-- What the host does next, if it can do anything: it sends an envelope or takes one in, and leaves
when its dialogue is over. It waits for a message as long as one can come. -/
def hostStep : Dialogue α → Duplex → Option (Option Envelope × Dialogue α × Duplex)
  | .send e next, link =>
    let (r, link) := Duplex.channel.send link e
    some (some e, next r, link)
  | .receive next, link =>
    let (r, link') := Duplex.channel.receive link
    if isReady link.toFirst then some (none, next r, link') else none
  | .done a, link =>
    if link.toSecond.senderGone then none else some (none, .done a, link.dropFirst)

end Parties

/-- What a server is doing: it waits for something to arrive, has something to answer, or has come
to its end. -/
inductive ServerState where
  | listening (s : Server.Session)
  | answering (r : Reaction)
  | ended (result : Except ProtocolError SessionEnd)

namespace ServerState

def after : Reaction → ServerState
  | .reply _ next => listening next
  | .stop _ result => ended result

def answer (r : Reaction) (link : Duplex) : Option Envelope × ServerState × Duplex :=
  match r.message? with
  | none => (none, after r, link)
  | some m =>
    let (result, link) := Duplex.channel.send link.swap { body := m }
    (some { body := m }, after (Server.Session.deliver (fun _ => result) r), link.swap)

def step : ServerState → Duplex → Option (Option Envelope × ServerState × Duplex)
  | listening s, link =>
    let (r, link') := Duplex.channel.receive link.swap
    if isReady link.toSecond then some (none, answering (s.react r), link'.swap) else none
  | answering r, link => some (answer r link)
  | ended result, link =>
    if link.toFirst.senderGone then none else some (none, ended result, link.swap.dropFirst.swap)

end ServerState

structure System (α : Type) where
  host : Dialogue α
  server : ServerState
  link : Duplex := {}

variable {α : Type}

/-- Either party may go next, whatever the other one is doing. A step is marked with the envelope
that is sent in it. -/
inductive Step : System α → Option Envelope → System α → Prop
  | host {host host' : Dialogue α} {server : ServerState} {link link' : Duplex}
      {l : Option Envelope} (h : hostStep host link = some (l, host', link')) :
      Step ⟨host, server, link⟩ l ⟨host', server, link'⟩
  | server {host : Dialogue α} {server server' : ServerState} {link link' : Duplex}
      {l : Option Envelope} (h : server.step link = some (l, server', link')) :
      Step ⟨host, server, link⟩ l ⟨host, server', link'⟩

inductive Run : System α → List Envelope → System α → Prop
  | refl (s : System α) : Run s [] s
  | step {s s' s'' : System α} {l : Option Envelope} {sent : List Envelope} (h : Step s l s')
      (hrun : Run s' sent s'') : Run s (l.toList ++ sent) s''

def Halted (s : System α) : Prop :=
  ∀ l s', ¬Step s l s'

/-- Whichever party goes next each time, the system comes to a halt where `Goal` holds, and these
envelopes are sent until then. -/
inductive Leads (Goal : System α → Prop) : System α → List Envelope → Prop
  | halt {s : System α} (hgoal : Goal s) (hhalted : Halted s) : Leads Goal s []
  | step {s : System α} {l : Option Envelope} {es : List Envelope} (hlive : ∃ s', Step s l s')
      (hlabel : ∀ l' s', Step s l' s' → l' = l) (hnext : ∀ s', Step s l s' → Leads Goal s' es) :
      Leads Goal s (l.toList ++ es)

namespace Leads

section Runs

variable {Goal : System α → Prop} {s s' : System α} {es sent : List Envelope}

/-- What has been sent on the way is the start of what is to be sent. -/
theorem run (h : Leads Goal s es) (hrun : Run s sent s') :
    ∃ rest, es = sent ++ rest ∧ Leads Goal s' rest := by
  induction hrun generalizing es with
  | refl s => exact ⟨es, rfl, h⟩
  | @step s s₁ s₂ l sent hstep _ ih =>
    cases h with
    | halt _ hhalted => exact absurd hstep (hhalted l s₁)
    | @step _ l' es _ hlabel hnext =>
      obtain rfl := hlabel l s₁ hstep
      obtain ⟨rest, rfl, hrest⟩ := ih (hnext s₁ hstep)
      exact ⟨rest, by rw [List.append_assoc], hrest⟩

theorem of_halted (h : Leads Goal s es) (hhalted : Halted s) : Goal s ∧ es = [] := by
  cases h with
  | halt hgoal _ => exact ⟨hgoal, rfl⟩
  | @step _ l _ hlive _ _ =>
    obtain ⟨s', hstep⟩ := hlive
    exact absurd hstep (hhalted l s')

/-- No run goes on for ever. -/
theorem not_forever (h : Leads Goal s es) (run : Nat → System α) (hstart : run 0 = s) :
    ¬∀ n, ∃ l, Step (run n) l (run (n + 1)) := by
  intro hsteps
  induction h generalizing run with
  | halt _ hhalted =>
    obtain ⟨l, hstep⟩ := hsteps 0
    exact hhalted l (run 1) (hstart ▸ hstep)
  | @step s l es _ hlabel _ ih =>
    obtain ⟨l', hstep⟩ := hsteps 0
    rw [hstart] at hstep
    obtain rfl := hlabel l' (run 1) hstep
    exact ih (run 1) hstep (fun n => run (n + 1)) rfl fun n => hsteps (n + 1)

end Runs

section Turns

variable {Goal : System α → Prop} {host host' : Dialogue α} {server server' : ServerState}
  {link link' link'' : Duplex} {l : Option Envelope} {es : List Envelope}

/-- What follows from every step of the host and from every step of the server follows. -/
theorem of_turns (hlive : ∃ s', Step ⟨host, server, link⟩ l s')
    (hhost : ∀ l' host' link', hostStep host link = some (l', host', link') →
      l' = l ∧ Leads Goal ⟨host', server, link'⟩ es)
    (hserver : ∀ l' server' link', server.step link = some (l', server', link') →
      l' = l ∧ Leads Goal ⟨host, server', link'⟩ es) :
    Leads Goal ⟨host, server, link⟩ (l.toList ++ es) := by
  have hall : ∀ l' s', Step ⟨host, server, link⟩ l' s' → l' = l ∧ Leads Goal s' es := by
    intro l' s' hstep
    cases hstep with
    | host h => exact hhost _ _ _ h
    | server h => exact hserver _ _ _ h
  exact .step hlive (fun l' s' h => (hall l' s' h).1) fun s' h => (hall l s' h).2

theorem of_host (hserver : server.step link = none)
    (hhost : hostStep host link = some (l, host', link'))
    (h : Leads Goal ⟨host', server, link'⟩ es) :
    Leads Goal ⟨host, server, link⟩ (l.toList ++ es) := by
  refine .of_turns ⟨_, .host hhost⟩ ?_ ?_
  · intro l' host'' link'' hhost'
    cases hhost.symm.trans hhost'
    exact ⟨rfl, h⟩
  · intro l' server' link'' hserver'
    cases hserver.symm.trans hserver'

theorem of_server (hhost : hostStep host link = none)
    (hserver : server.step link = some (l, server', link'))
    (h : Leads Goal ⟨host, server', link'⟩ es) :
    Leads Goal ⟨host, server, link⟩ (l.toList ++ es) := by
  refine .of_turns ⟨_, .server hserver⟩ ?_ ?_
  · intro l' host' link'' hhost'
    cases hhost.symm.trans hhost'
  · intro l' server'' link'' hserver'
    cases hserver.symm.trans hserver'
    exact ⟨rfl, h⟩

/-- Where both can go and neither sends anything, either may go first. -/
theorem of_both (hhost : hostStep host link = some (none, host', link'))
    (hserver : server.step link = some (none, server', link''))
    (h : Leads Goal ⟨host', server, link'⟩ es) (h' : Leads Goal ⟨host, server', link''⟩ es) :
    Leads Goal ⟨host, server, link⟩ es := by
  refine .of_turns (l := none) ⟨_, .host hhost⟩ ?_ ?_
  · intro l' host'' _ hhost'
    cases hhost.symm.trans hhost'
    exact ⟨rfl, h⟩
  · intro l' server'' _ hserver'
    cases hserver.symm.trans hserver'
    exact ⟨rfl, h'⟩

end Turns

end Leads

def between (toHost toServer : List Bytes) : Duplex where
  toFirst := { frames := toHost }
  toSecond := { frames := toServer }

theorem send_between {e : Envelope} {bytes : Bytes} (h : e.encode = .ok bytes)
    (back frames : List Bytes) : Duplex.channel.send (between back frames) e =
      (.ok (), between back (frames ++ [bytes])) := by
  simp [between, Duplex.channel, Pipe.send, h, Pipe.push]

theorem answer_reply {m : Message} {bytes : Bytes} (h : m.encode = .ok bytes)
    (next : Server.Session) : ServerState.answer (.reply m next) (between [] []) =
      (some { body := m }, .listening next, between [bytes] []) := by
  have hswap : (between [] []).swap = between [] [] := rfl
  simp only [ServerState.answer, Reaction.message?, hswap, send_between h]
  rfl

def Asks (d : Dialogue α) (question : Message) (next : Received → Dialogue α) : Prop :=
  ∃ sent, d = .send { body := question } sent ∧ sent (.ok ()) = .receive next

namespace Leads

variable {Goal : System α → Prop} {es : List Envelope} {next : Received → Dialogue α}
  {s s' : Server.Session}

/-- While the host waits there is one thing to do at a time: a question goes out, is heard and
answered, and its answer comes in. -/
theorem roundTrip {d : Dialogue α} {question answer : Message} (hasks : Asks d question next)
    (hquestion : Envelope.Fits { body := question }) (hanswer : Envelope.Fits { body := answer })
    (hreact : s.react (.ok { body := question }) = .reply answer s')
    (h : Leads Goal ⟨next (.ok { body := answer }), .listening s', between [] []⟩ es) :
    Leads Goal ⟨d, .listening s, between [] []⟩
      ({ body := question } :: { body := answer } :: es) := by
  obtain ⟨sent, rfl, hsent⟩ := hasks
  obtain ⟨asked, hencode, hopen⟩ := Message.exists_encode hquestion
  obtain ⟨answered, hencode', hopen'⟩ := Message.exists_encode hanswer
  -- Four steps, and before each of them the other party has nothing to do.
  have hasked : hostStep (.send { body := question } sent) (between [] []) =
      some (some { body := question }, .receive next, between [] [asked]) := by
    simp only [hostStep, send_between hencode [] [], hsent]
    rfl
  have hheard : (ServerState.listening s).step (between [] [asked]) =
      some (none, .answering (.reply answer s'), between [] []) := by
    rw [← hreact, ← hopen]
    rfl
  have hanswered : (ServerState.answering (.reply answer s')).step (between [] []) =
      some (some { body := answer }, .listening s', between [answered] []) := by
    rw [ServerState.step, answer_reply hencode']
  have hreceived : hostStep (.receive next) (between [answered] []) =
      some (none, next (.ok { body := answer }), between [] []) := by
    rw [← hopen']
    rfl
  exact .of_host rfl hasked (.of_server rfl hheard (.of_server rfl hanswered
    (.of_host rfl hreceived h)))

end Leads

section Parting

def leftIf (left : Bool) (link : Duplex) : Duplex :=
  if left then link.dropFirst else link

variable {Goal : System α → Prop} {a : α} {server server' : ServerState} {link link' : Duplex}

/-- Once its dialogue is over, the host may leave before or after a step of the server. -/
theorem Leads.of_parting (hthere : link.toSecond.senderGone = false)
    (hserver : ∀ left, server.step (leftIf left link) = some (none, server', leftIf left link'))
    (h : ∀ left, Leads Goal ⟨.done a, server', leftIf left link'⟩ []) (left : Bool) :
    Leads Goal ⟨.done a, server, leftIf left link⟩ [] := by
  have hleft : Leads Goal ⟨.done a, server, leftIf true link⟩ [] :=
    .of_server rfl (hserver true) (h true)
  cases left with
  | true => exact hleft
  | false =>
    have hhost : hostStep (.done a) link = some (none, .done a, link.dropFirst) := by
      rw [hostStep, hthere]
      rfl
    exact .of_both hhost (hserver false) hleft (h false)

/-- The host has said its last word, upon which the server ends. -/
theorem Leads.of_lastWord {s : Server.Session} {bytes : Bytes}
    {result : Except ProtocolError SessionEnd}
    (hreact : s.react (Pipe.openBuffer bytes) = .stop none result)
    (hgoal : ∀ link, Goal ⟨.done a, .ended result, link⟩) :
    Leads Goal ⟨.done a, .listening s, between [] [bytes]⟩ [] := by
  -- Backwards: the server has left, has ended, has made up its mind, has yet to hear the word. The
  -- host may have left or not in each of these.
  have hgone (left : Bool) : Leads Goal ⟨.done a, .ended result,
      leftIf left (between [] []).swap.dropFirst.swap⟩ [] := by
    have hleft : Leads Goal ⟨.done a, .ended result,
        leftIf true (between [] []).swap.dropFirst.swap⟩ [] := by
      refine .halt (hgoal _) fun l s' hstep => ?_
      cases hstep with
      | host h => cases h
      | server h => cases h
    cases left with
    | true => exact hleft
    | false => exact .of_host (l := none) rfl rfl hleft
  have hended (left : Bool) : Leads Goal ⟨.done a, .ended result, leftIf left (between [] [])⟩ [] :=
    .of_parting rfl (by rintro (_ | _) <;> rfl) hgone left
  have hstopped (left : Bool) : Leads Goal ⟨.done a, .answering (.stop none result),
      leftIf left (between [] [])⟩ [] :=
    .of_parting rfl (fun _ => rfl) hended left
  have hheard (left : Bool) : (ServerState.listening s).step (leftIf left (between [] [bytes])) =
      some (none, .answering (.stop none result), leftIf left (between [] [])) := by
    rw [← hreact]
    cases left <;> rfl
  exact .of_parting rfl hheard hstopped false

end Parting

end PassEngine.Remote
