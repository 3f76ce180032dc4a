import PassEngine.Wire.Error

namespace PassEngine.Wire

abbrev Bytes := List UInt8

/-- One answer of a reader: at least one byte, a call to try again, or a failure. -/
inductive Arrival where
  | data (first : UInt8) (rest : Bytes)
  | interrupted
  | fault (f : IoFault)
  deriving DecidableEq, Repr

/-- What a reader will answer, one read after the other; then its stream has ended. A read that
wants fewer bytes than have arrived leaves the others for the next. -/
abbrev Source := List Arrival

inductive Filling where
  | full (bytes : Bytes) (rest : Source)
  | ended (got : Nat)
  | failed (f : IoFault) (rest : Source)
  deriving DecidableEq, Repr

namespace Filling

def after (piece : Bytes) : Filling → Filling
  | full bytes rest => full (piece ++ bytes) rest
  | ended got => ended (piece.length + got)
  | failed f rest => failed f rest

end Filling

namespace Source

def ofBytes : Bytes → Source
  | [] => []
  | b :: bs => [.data b bs]

/-- Bytes in pieces of the given size, which is not zero. -/
def ofChunks (size : Nat) (bytes : Bytes) : Source :=
  go bytes.length bytes
where
  go : Nat → Bytes → Source
    | 0, _ => []
    | fuel + 1, bytes => ofBytes (bytes.take size) ++ go fuel (bytes.drop size)

/-- A reader that gives its bytes at once or in pieces, and after the last one fails, if it does.
One that gives pieces of no bytes has ended before it starts. -/
def ofReader (chunk : Option Nat) (bytes : Bytes) (failure : Option IoFault) : Source :=
  let ending : Source := failure.toList.map .fault
  match chunk with
  | none => ofBytes bytes ++ ending
  | some 0 => []
  | some size => ofChunks size bytes ++ ending

/-- The bytes that will arrive before the stream ends or fails. -/
def bytes : Source → Bytes
  | [] => []
  | .data b bs :: s => b :: bs ++ bytes s
  | .interrupted :: s => bytes s
  | .fault _ :: _ => []

def fill : Nat → Source → Filling
  | 0, s => .full [] s
  | _ + 1, [] => .ended 0
  | n + 1, .interrupted :: s => fill (n + 1) s
  | _ + 1, .fault f :: s => .failed f s
  | n + 1, .data b bs :: s =>
    if bs.length ≤ n then (fill (n - bs.length) s).after (b :: bs)
    else .full (b :: bs.take n) (ofBytes (bs.drop n) ++ s)

end Source

end PassEngine.Wire
