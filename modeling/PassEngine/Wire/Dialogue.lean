import PassEngine.Wire.Channel

namespace PassEngine.Wire

/-- One party's side of a conversation: what it sends and receives, how it goes on from what comes
of that, and what it has learnt at the end. -/
inductive Dialogue (α : Type) where
  | done (a : α)
  | send (e : Envelope) (next : Except ProtocolError Unit → Dialogue α)
  | receive (next : Received → Dialogue α)

namespace Dialogue

variable {α β σ : Type}

protected def bind : Dialogue α → (α → Dialogue β) → Dialogue β
  | done a, f => f a
  | send e next, f => send e fun r => (next r).bind f
  | receive next, f => receive fun r => (next r).bind f

instance : Monad Dialogue where
  pure := done
  bind := Dialogue.bind

def say (m : Message) : Dialogue (Except ProtocolError Unit) :=
  send { body := m } done

def listen : Dialogue Received :=
  receive done

def run (c : Channel σ) : Dialogue α → σ → α × σ
  | done a, s => (a, s)
  | send e next, s => let (r, s) := c.send s e; (next r).run c s
  | receive next, s => let (r, s) := c.receive s; (next r).run c s

theorem run_bind (c : Channel σ) (d : Dialogue α) (f : α → Dialogue β) (s : σ) :
    (d >>= f).run c s = (f (d.run c s).1).run c (d.run c s).2 := by
  change (d.bind f).run c s = _
  induction d generalizing s with
  | done a => rfl
  | send e next ih => exact ih _ _
  | receive next ih => exact ih _ _

end Dialogue

end PassEngine.Wire
