import StackMachine.Bytes

/-!
# Sink — a stream that is written

A sink is the sequence of outcomes of the calls that write to it: a call accepts some of the bytes,
is interrupted, or fails. Past the last of these outcomes a sink accepts at most `chunk` bytes at a
time and at most `room` bytes in all. `Sink.writeAll` calls until all bytes are accepted, starting
again after an interruption; a call that accepts nothing is an error. The outcomes of the calls that
flush are a sequence of their own.
-/

namespace StackMachine

inductive Sink.Event where
  /-- So many of the bytes are accepted, or all of them if there are fewer. -/
  | accepted (count : Nat)
  /-- The call was interrupted and may be made again. -/
  | interrupted
  | failed (reason : String)
  deriving DecidableEq, Repr

structure Sink where
  /-- The bytes accepted so far. -/
  written : Array UInt8 := #[]
  /-- The outcomes of the next calls. -/
  events : List Sink.Event := []
  /-- How many more bytes are accepted past the last event; no bound if missing. -/
  room : Option Nat := none
  /-- How many bytes one call accepts past the last event; no bound if missing. -/
  chunk : Option Nat := none
  /-- How a call fails when there is no room; if missing, it accepts nothing. -/
  refusal : Option String := none
  /-- How the next calls that flush fail, if they do. -/
  flushes : List (Option String) := []
  /-- How flushing fails after these, if it does. -/
  flushFailure : Option String := none
  deriving DecidableEq, Repr, Inhabited

namespace Sink

/-- The least of a number and a bound that may be missing. -/
def atMost (n : Nat) : Option Nat → Nat
  | some bound => min n bound
  | none => n

/-- The outcome of a call with a non-empty `data` past the last event. -/
def settled (s : Sink) (data : Bytes) : Event :=
  match s.room, s.refusal with
  | some 0, some reason => .failed reason
  | _, _ => .accepted (atMost (atMost data.length s.chunk) s.room)

/-- The outcome of a call with a non-empty `data`. -/
def call (s : Sink) (data : Bytes) : Event × Sink :=
  match s.events with
  | event :: events => (event, { s with events })
  | [] => (s.settled data, s)

/-- The sink after a call that accepted the bytes. -/
def accept (s : Sink) (data : Bytes) : Sink :=
  { s with written := s.written ++ data, room := s.room.map (· - data.length) }

/-- The failure of a call that accepts nothing. -/
def stuck : String := "failed to write whole buffer"

/-- A call uses up at most one event. -/
theorem length_events_call (s : Sink) (data : Bytes) :
    (s.call data).2.events.length ≤ s.events.length := by
  unfold call
  cases hevents : s.events with
  | nil => simp [hevents]
  | cons event events => simp

/-- A sink is interrupted by an event only, so that it cannot be interrupted for ever. -/
theorem length_events_of_interrupted {s s' : Sink} {data : Bytes}
    (hcall : s.call data = (.interrupted, s')) : s'.events.length < s.events.length := by
  unfold call at hcall
  split at hcall
  next event events hevents =>
    cases hcall
    simp [hevents]
  next hevents =>
    have hsettled : s.settled data = .interrupted := congrArg Prod.fst hcall
    unfold settled at hsettled
    split at hsettled
    · cases hsettled
    · cases hsettled

/-- Writes all bytes. Those accepted before a failure stay written. -/
def writeAll (data : Bytes) (s : Sink) : EStateM.Result String Sink Unit :=
  if _nonempty : data = [] then .ok () s
  else match _called : s.call data with
    | (.failed reason, after) => .error reason after
    | (.interrupted, after) => writeAll data after
    | (.accepted 0, after) => .error stuck after
    | (.accepted (n + 1), after) =>
      writeAll (data.drop (n + 1)) (after.accept (data.take (n + 1)))
termination_by s.events.length + data.length
decreasing_by
  · have := length_events_of_interrupted _called
    omega
  · have hevents : after.events.length ≤ s.events.length := by
      simpa only [_called] using s.length_events_call data
    have := List.length_pos_iff.2 _nonempty
    simp only [List.length_drop, accept]
    omega

def flush (s : Sink) : EStateM.Result String Sink Unit :=
  match s.flushes, s.flushFailure with
  | some reason :: flushes, _ => .error reason { s with flushes }
  | none :: flushes, _ => .ok () { s with flushes }
  | [], some reason => .error reason s
  | [], none => .ok () s

end Sink

end StackMachine
