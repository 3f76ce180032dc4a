import PassEngine.Wire.Dialogue

namespace PassEngine.Wire

/-- What one party of a conversation tries to send and what comes of it, and what it receives. -/
inductive Event where
  | sent (e : Envelope) (result : Except ProtocolError Unit)
  | received (r : Received)

namespace Dialogue

variable {α β σ : Type}

theorem bind_assoc {γ : Type} (d : Dialogue α) (f : α → Dialogue β) (g : β → Dialogue γ) :
    d >>= f >>= g = d >>= fun a => f a >>= g := by
  change (d.bind f).bind g = d.bind fun a => (f a).bind g
  induction d with
  | done a => rfl
  | send e next ih => exact congrArg (Dialogue.send e) (funext ih)
  | receive next ih => exact congrArg Dialogue.receive (funext ih)

def transcript (c : Channel σ) : Dialogue α → σ → List Event
  | done _, _ => []
  | send e next, s => .sent e (c.send s e).1 :: (next (c.send s e).1).transcript c (c.send s e).2
  | receive next, s =>
    .received (c.receive s).1 :: (next (c.receive s).1).transcript c (c.receive s).2

theorem transcript_bind (c : Channel σ) (d : Dialogue α) (f : α → Dialogue β) (s : σ) :
    (d >>= f).transcript c s =
      d.transcript c s ++ (f (d.run c s).1).transcript c (d.run c s).2 := by
  change (d.bind f).transcript c s = _
  induction d generalizing s with
  | done a => rfl
  | send e next ih => exact congrArg (Event.sent e (c.send s e).1 :: ·) (ih _ _)
  | receive next ih => exact congrArg (Event.received (c.receive s).1 :: ·) (ih _ _)

@[simp]
theorem run_pure (c : Channel σ) (a : α) (s : σ) : (pure a : Dialogue α).run c s = (a, s) := rfl

@[simp]
theorem transcript_pure (c : Channel σ) (a : α) (s : σ) :
    (pure a : Dialogue α).transcript c s = [] := rfl

@[simp]
theorem run_say (c : Channel σ) (m : Message) (s : σ) :
    (say m).run c s = c.send s { body := m } := rfl

@[simp]
theorem transcript_say (c : Channel σ) (m : Message) (s : σ) :
    (say m).transcript c s = [.sent { body := m } (c.send s { body := m }).1] := rfl

@[simp]
theorem run_listen (c : Channel σ) (s : σ) : listen.run c s = c.receive s := rfl

@[simp]
theorem transcript_listen (c : Channel σ) (s : σ) :
    listen.transcript c s = [.received (c.receive s).1] := rfl

end Dialogue

end PassEngine.Wire
