import StackMachine.Bytes

/-!
# Source — a stream that is read

A source is the sequence of outcomes of the calls that read it. A call that asks for `n` bytes gets
at most `n` bytes of the next chunk and leaves the rest of the chunk for the next call; it may also
be interrupted, meet the end of the input, or fail. `Source.fill` calls until the request is met,
starting again after an interruption.
-/

namespace StackMachine

inductive Source.Event where
  /-- Bytes are there. An empty chunk reads like the end of the input. -/
  | chunk (bytes : Bytes)
  /-- The call was interrupted and may be made again. -/
  | interrupted
  /-- The input ends here. -/
  | ended
  /-- The call fails. -/
  | failed (reason : String)
  deriving DecidableEq, Repr

/-- A stream that is read. Past its last event it is at its end. -/
structure Source where
  events : List Source.Event := []
  deriving DecidableEq, Repr, Inhabited

namespace Source

def ofBytes (bytes : Bytes) : Source := ⟨[.chunk bytes]⟩

/-- What a request got: the bytes, the failure that ended it, and the events that are left. -/
structure Filled where
  bytes : Bytes
  failure : Option String
  rest : List Event

/-- Reads until `n` more bytes are there or the input ends or fails. -/
def fillFrom (got : Bytes) : (n : Nat) → (events : List Event) → Filled
  | 0, events => ⟨got, none, events⟩
  | _ + 1, [] => ⟨got, none, []⟩
  | _ + 1, .ended :: rest => ⟨got, none, rest⟩
  | _ + 1, .failed reason :: rest => ⟨got, some reason, rest⟩
  | n + 1, .interrupted :: rest => fillFrom got (n + 1) rest
  | _ + 1, .chunk [] :: rest => ⟨got, none, rest⟩
  | n + 1, .chunk (b :: bs) :: rest =>
    let chunk := b :: bs
    if chunk.length ≤ n + 1 then fillFrom (got ++ chunk) (n + 1 - chunk.length) rest
    else ⟨got ++ chunk.take (n + 1), none, .chunk (chunk.drop (n + 1)) :: rest⟩

/-- Reads up to `n` bytes. Bytes read before a failure are kept. -/
def fill (s : Source) (n : Nat) : (Bytes × Option String) × Source :=
  let filled := fillFrom [] n s.events
  ((filled.bytes, filled.failure), ⟨filled.rest⟩)

end Source

end StackMachine
