import StackMachine.Proofs.BrokenInput

/-!
# InputStream — where the bytes of the input go

A request for input is a loop of calls. A call may bring only a part of what is still missing, be
interrupted, meet the end of the input or fail, and a chunk is cut wherever a request is met. Still
each byte of the stream is handed out once and in its place, over all requests.

* `Source.Call`, `Source.Loop` — one call, and the loop of calls that a request makes;
* `Source.exists_loop_iff` — the loop ends, and with the outcome of `Source.fillFrom`;
* `Source.RunsOut` — a stream yields some bytes, fewer than were asked for, and then is at an end;
* `Source.Call.conserves`, `Source.Loop.conserves`, `Host.received_conserves` — one call, one
  request and any number of requests hand out the bytes that they take from the stream;
* `Source.Loop.uninterrupted` — interruptions only cost calls;
* `Host.Answers` — what a request does to the stream and to the buffer of the guest;
* `Host.input_conserved` — all of this for the requests of a run.
-/

namespace StackMachine

namespace Source

/-! ## Calls -/

inductive Outcome where
  | read (bytes : Bytes)
  | interrupted
  | failed (reason : String)

def Outcome.bytes : Outcome → Bytes
  | .read bytes => bytes
  | _ => []

/-- The input is at an end. Behind that it may go on. -/
inductive AtEnd : (events rest : List Event) → Prop
  | past : AtEnd [] []
  | ended {rest} : AtEnd (.ended :: rest) rest
  | empty {rest} : AtEnd (.chunk [] :: rest) rest

/-- One call for up to `n` bytes: its outcome, and what it leaves of the stream. -/
inductive Call (n : Nat) : (events : List Event) → Outcome → (rest : List Event) → Prop
  | ended {events rest} (hend : AtEnd events rest) : Call n events (.read []) rest
  | interrupted {rest} : Call n (.interrupted :: rest) .interrupted rest
  | failed {reason rest} : Call n (.failed reason :: rest) (.failed reason) rest
  | whole {bytes rest} (hbytes : bytes ≠ []) (hroom : bytes.length ≤ n) :
      Call n (.chunk bytes :: rest) (.read bytes) rest
  | part {front back rest} (hfront : front.length = n) (hback : back ≠ []) :
      Call n (.chunk (front ++ back) :: rest) (.read front) (.chunk back :: rest)

/-- What was got behind bytes that were there before. -/
def Filled.behind (filled : Filled) (bytes : Bytes) : Filled :=
  ⟨bytes ++ filled.bytes, filled.failure, filled.rest⟩

/-- The loop of a request for `n` bytes: the number of calls that it makes, and what they get. -/
inductive Loop : (calls n : Nat) → (events : List Event) → (filled : Filled) → Prop
  | full {events} : Loop 0 0 events ⟨[], none, events⟩
  | ended {n events rest} (hcall : Call (n + 1) events (.read []) rest) :
      Loop 1 (n + 1) events ⟨[], none, rest⟩
  | failed {n events reason rest} (hcall : Call (n + 1) events (.failed reason) rest) :
      Loop 1 (n + 1) events ⟨[], some reason, rest⟩
  | interrupted {calls n events rest filled} (hcall : Call (n + 1) events .interrupted rest)
      (hloop : Loop calls (n + 1) rest filled) : Loop (calls + 1) (n + 1) events filled
  | more {calls n events bytes rest filled} (hcall : Call (n + 1) events (.read bytes) rest)
      (hbytes : bytes ≠ []) (hloop : Loop calls (n + 1 - bytes.length) rest filled) :
      Loop (calls + 1) (n + 1) events (filled.behind bytes)

variable {calls n : Nat} {events rest : List Event} {bytes got : Bytes} {filled : Filled}

/-- At the end of the input, a request gets nothing more and does not fail. -/
theorem fillFrom_of_atEnd (hend : AtEnd events rest) :
    fillFrom got (n + 1) events = ⟨got, none, rest⟩ := by
  cases hend with
  | past => rfl
  | ended => rfl
  | empty => rfl

/-- A call that is asked for bytes and brings none has met the end. -/
theorem Call.atEnd (hcall : Call (n + 1) events (.read []) rest) : AtEnd events rest := by
  cases hcall with
  | ended hend => exact hend
  | whole hbytes hroom => exact absurd rfl hbytes
  | part hfront hback => cases hfront

/-- The loop gets what `fillFrom` adds to the bytes that are there. -/
theorem Loop.fillFrom_eq (hloop : Loop calls n events filled) :
    fillFrom got n events = filled.behind got := by
  induction hloop generalizing got with
  | full => simp [fillFrom, Filled.behind]
  | ended hcall =>
    rw [fillFrom_of_atEnd hcall.atEnd]
    simp [Filled.behind]
  | failed hcall =>
    cases hcall
    simp [fillFrom, Filled.behind]
  | interrupted hcall hloop ih =>
    cases hcall
    rw [fillFrom]
    exact ih
  | @more calls n events bytes rest filled hcall hbytes hloop ih =>
    cases hcall with
    | ended hend => exact absurd rfl hbytes
    | whole hsome hroom =>
      rcases List.exists_cons_of_ne_nil hbytes with ⟨b, bs, rfl⟩
      rw [fillFrom, if_pos hroom, ih]
      simp [Filled.behind]
    | @part front back rest hfront hback =>
      -- the request is met, so the loop has made its last call
      rw [hfront, Nat.sub_self] at hloop
      cases hloop
      rcases List.exists_cons_of_ne_nil hbytes with ⟨b, bs, rfl⟩
      have hlong : ¬((b :: bs) ++ back).length ≤ n + 1 := by
        have hpos := List.length_pos_iff.2 hback
        rw [List.length_append]
        omega
      rw [List.cons_append, fillFrom]
      simp only [← List.cons_append]
      rw [if_neg hlong, ← hfront, List.take_left, List.drop_left]
      simp [Filled.behind]

/-- What the loop gets is what the request gets. -/
theorem Loop.fillFrom_nil (hloop : Loop calls n events filled) : fillFrom [] n events = filled :=
  hloop.fillFrom_eq

theorem exists_cut (hlong : n < bytes.length) :
    ∃ front back, bytes = front ++ back ∧ front.length = n ∧ back ≠ [] := by
  refine ⟨bytes.take n, bytes.drop n, (List.take_append_drop n bytes).symm, ?_, ?_⟩
  · exact List.length_take_of_le (Nat.le_of_lt hlong)
  · intro hnil
    rw [List.drop_eq_nil_iff] at hnil
    omega

/-- Each call takes an event from the stream, but for a last one. -/
theorem exists_loop (n : Nat) (events : List Event) :
    ∃ calls filled, calls ≤ events.length + 1 ∧ Loop calls n events filled := by
  induction events generalizing n with
  | nil =>
    cases n with
    | zero => exact ⟨0, _, Nat.zero_le _, .full⟩
    | succ n => exact ⟨1, _, Nat.le_refl _, .ended (.ended .past)⟩
  | cons e events ih =>
    cases n with
    | zero => exact ⟨0, _, Nat.zero_le _, .full⟩
    | succ n =>
      have hone : 1 ≤ (e :: events).length + 1 := Nat.le_add_left 1 _
      cases e with
      | ended => exact ⟨1, _, hone, .ended (.ended .ended)⟩
      | failed reason => exact ⟨1, _, hone, .failed .failed⟩
      | interrupted =>
        rcases ih (n + 1) with ⟨calls, filled, hcalls, hloop⟩
        exact ⟨calls + 1, filled, Nat.succ_le_succ hcalls, .interrupted .interrupted hloop⟩
      | chunk bytes =>
        by_cases hbytes : bytes = []
        · subst hbytes
          exact ⟨1, _, hone, .ended (.ended .empty)⟩
        by_cases hroom : bytes.length ≤ n + 1
        · rcases ih (n + 1 - bytes.length) with ⟨calls, filled, hcalls, hloop⟩
          exact ⟨calls + 1, _, Nat.succ_le_succ hcalls, .more (.whole hbytes hroom) hbytes hloop⟩
        · -- the chunk stays in the stream, cut, but no call follows
          rcases exists_cut (Nat.lt_of_not_le hroom) with ⟨front, back, rfl, hfront, hback⟩
          have hfilled : front ≠ [] := List.ne_nil_of_length_eq_add_one hfront
          have hfull : Loop 0 (n + 1 - front.length) (.chunk back :: events)
              ⟨[], none, .chunk back :: events⟩ := by
            rw [hfront, Nat.sub_self]
            exact .full
          exact ⟨1, _, hone, .more (.part hfront hback) hfilled hfull⟩

/-- The loop ends, and there is one outcome. -/
theorem exists_loop_iff : (∃ calls, calls ≤ events.length + 1 ∧ Loop calls n events filled) ↔
    filled = fillFrom [] n events := by
  constructor
  · rintro ⟨calls, -, hloop⟩
    exact hloop.fillFrom_nil.symm
  · rintro rfl
    rcases exists_loop n events with ⟨calls, filled, hcalls, hloop⟩
    rw [hloop.fillFrom_nil]
    exact ⟨calls, hcalls, hloop⟩

/-- The loop of every request ends. -/
theorem loop_fillFrom (n : Nat) (events : List Event) :
    ∃ calls, Loop calls n events (fillFrom [] n events) := by
  rcases exists_loop_iff.2 (Eq.refl (fillFrom [] n events)) with ⟨calls, -, hloop⟩
  exact ⟨calls, hloop⟩

/-! ## Bytes that are handed out -/

/-- The bytes of the stream that are still to come. -/
def pending (events : List Event) : Bytes := events.flatMap Event.bytes

/-- A call takes its bytes from the front of those to come. -/
theorem Call.conserves {outcome : Outcome} (hcall : Call n events outcome rest) :
    outcome.bytes ++ pending rest = pending events := by
  cases hcall with
  | ended hend =>
    cases hend with
    | past => rfl
    | ended => rfl
    | empty => rfl
  | interrupted => rfl
  | failed => rfl
  | whole hbytes hroom => rfl
  | part hfront hback => simp [Outcome.bytes, pending, Event.bytes]

/-- A request takes its bytes from the front of those to come. -/
theorem Loop.conserves (hloop : Loop calls n events filled) :
    filled.bytes ++ pending filled.rest = pending events := by
  induction hloop with
  | full => rfl
  | ended hcall => exact hcall.conserves
  | failed hcall => exact hcall.conserves
  | interrupted hcall hloop ih => exact ih.trans hcall.conserves
  | more hcall hbytes hloop ih =>
    rw [← hcall.conserves, ← ih]
    exact List.append_assoc _ _ _

/-! ## Requests that are not met -/

/-- The stream yields bytes, fewer than `n`, and then is at an end. -/
structure RunsOut (events : List Event) (n : Nat) (bytes : Bytes) (rest : List Event) : Prop where
  split : ∃ before after, events = before ++ after ∧ (∀ e ∈ before, e.GoesOn) ∧
    bytes = before.flatMap Event.bytes ∧ AtEnd after rest
  short : bytes.length < n

theorem RunsOut.cons {e : Event} (he : e.GoesOn)
    (h : RunsOut events (n - e.bytes.length) bytes rest) :
    RunsOut (e :: events) n (e.bytes ++ bytes) rest := by
  rcases h with ⟨⟨before, after, rfl, hbefore, rfl, hend⟩, hshort⟩
  refine ⟨⟨e :: before, after, rfl, ?_, rfl, hend⟩, ?_⟩
  · exact List.forall_mem_cons.2 ⟨he, hbefore⟩
  · rw [List.length_append]
    omega

/-- A request that gets too little without a failure has run out of input. -/
theorem Loop.runsOut (hloop : Loop calls n events filled) (hnone : filled.failure = none)
    (hshort : filled.bytes.length < n) : RunsOut events n filled.bytes filled.rest := by
  induction hloop with
  | full => cases hshort
  | ended hcall =>
    refine ⟨⟨[], _, rfl, ?_, rfl, hcall.atEnd⟩, hshort⟩
    intro e he
    cases he
  | failed hcall => cases hnone
  | interrupted hcall hloop ih =>
    cases hcall
    exact (ih hnone hshort).cons (.inl rfl)
  | @more calls n events bytes rest filled hcall hbytes hloop ih =>
    have htotal : (bytes ++ filled.bytes).length < n + 1 := hshort
    rw [List.length_append] at htotal
    cases hcall with
    | ended hend => exact absurd rfl hbytes
    | whole hsome hroom => exact (ih hnone (by omega)).cons (.inr hbytes)
    | part hfront hback =>
      -- a chunk is cut only where the request is met
      omega

/-- A request gets too little without a failure exactly if the stream runs out. -/
theorem fillFrom_short_iff : fillFrom [] n events = ⟨bytes, none, rest⟩ ∧ bytes.length < n ↔
    RunsOut events n bytes rest := by
  constructor
  · rintro ⟨hfill, hshort⟩
    rcases loop_fillFrom n events with ⟨calls, hloop⟩
    rw [hfill] at hloop
    exact hloop.runsOut rfl hshort
  · rintro ⟨⟨before, after, rfl, hbefore, rfl, hend⟩, hshort⟩
    refine ⟨?_, hshort⟩
    rw [fillFrom_append hbefore hshort, List.nil_append]
    -- some bytes are still missing when the end is met
    cases hmissing : n - (before.flatMap Event.bytes).length with
    | zero => omega
    | succ missing => exact fillFrom_of_atEnd hend

/-! ## Interruptions -/

def uninterrupted (events : List Event) : List Event := events.filter (· ≠ .interrupted)

/-- A call that is not interrupted is the same on the stream without interruptions. -/
theorem Call.uninterrupted {outcome : Outcome} (hcall : Call n events outcome rest)
    (houtcome : outcome ≠ .interrupted) :
    Call n (uninterrupted events) outcome (uninterrupted rest) := by
  cases hcall with
  | ended hend =>
    cases hend with
    | past => exact .ended .past
    | ended => exact .ended .ended
    | empty => exact .ended .empty
  | interrupted => exact absurd rfl houtcome
  | failed => exact .failed
  | whole hbytes hroom => exact .whole hbytes hroom
  | part hfront hback => exact .part hfront hback

/-- Without interruptions the same is got, in no more calls. -/
theorem Loop.uninterrupted (hloop : Loop calls n events filled) :
    ∃ fewer, fewer ≤ calls ∧ Loop fewer n (uninterrupted events)
      { filled with rest := uninterrupted filled.rest } := by
  induction hloop with
  | full => exact ⟨0, Nat.le_refl 0, .full⟩
  | ended hcall => exact ⟨1, Nat.le_refl 1, .ended (hcall.uninterrupted nofun)⟩
  | failed hcall => exact ⟨1, Nat.le_refl 1, .failed (hcall.uninterrupted nofun)⟩
  | interrupted hcall hloop ih =>
    -- the call is not made at all
    rcases ih with ⟨fewer, hfewer, hloop'⟩
    cases hcall
    exact ⟨fewer, Nat.le_succ_of_le hfewer, hloop'⟩
  | more hcall hbytes hloop ih =>
    rcases ih with ⟨fewer, hfewer, hloop'⟩
    exact ⟨fewer + 1, Nat.succ_le_succ hfewer, .more (hcall.uninterrupted nofun) hbytes hloop'⟩

/-- A request gets the same from the stream without interruptions. -/
theorem fillFrom_uninterrupted (n : Nat) (events : List Event) :
    fillFrom [] n (uninterrupted events) =
      { fillFrom [] n events with rest := uninterrupted (fillFrom [] n events).rest } := by
  rcases loop_fillFrom n events with ⟨calls, hloop⟩
  rcases hloop.uninterrupted with ⟨fewer, -, hloop'⟩
  exact hloop'.fillFrom_nil

end Source

/-! ## The buffer of the guest -/

/-- Bytes that arrive are at the front of the buffer, and the rest of it is as it was. -/
theorem Heap.slice_overwrite_front {h : Heap} {a : Word} {n : Nat} {held bytes : Bytes}
    (hheld : h.slice a n = .ok held) (hroom : bytes.length ≤ n) :
    (h.overwrite a bytes).slice a n = .ok (bytes ++ held.drop bytes.length) := by
  rcases slice_ok_iff.1 hheld with ⟨r, hlookup, hfits, hlength, hplaces⟩
  refine slice_ok_iff.2
    ⟨{ r with bytes := splice r.bytes (Address.offset a) bytes }, ?_, ?_, ?_, ?_⟩
  · rw [lookup_overwrite, if_pos rfl, hlookup]
    rfl
  · rw [size_splice]
    exact hfits
  · rw [List.length_append, List.length_drop, hlength]
    omega
  · intro i hi
    rw [getElem?_splice_eq (by omega), List.getElem?_append]
    by_cases hinside : i < bytes.length
    · rw [if_pos hinside, if_pos (by omega), Nat.add_sub_cancel_left]
    · rw [if_neg hinside, if_neg (by omega), List.getElem?_drop, ← hplaces i hi]
      congr 1
      omega

/-- What a request has got is in guest memory. -/
theorem Machine.receive_of_read {m : Machine} {handle address : Word} {n : Nat} {bytes : Bytes}
    {host : Host} (hcovers : m.heap.covers address n = true)
    (hread : m.host.read handle n = ((bytes, none), host)) :
    Interrupt.receive handle address n m =
      .ok bytes.length { m with host, heap := m.heap.overwrite address bytes } := by
  unfold Interrupt.receive
  rw [get_bind, if_pos hcovers]
  exact bind_of_ok (onHost_read hread)

/-! ## Requests one after another -/

namespace Host

def received (h : Host) (handle : Word) : (sizes : List Nat) → List Received
  | [] => []
  | n :: sizes => (h.read handle n).1 :: (h.read handle n).2.received handle sizes

def afterReads (h : Host) (handle : Word) (sizes : List Nat) : Host :=
  sizes.foldl (fun h n => (h.read handle n).2) h

def uninterrupted (h : Host) : Host := { h with stdin := ⟨Source.uninterrupted h.stdin.events⟩ }

variable {h : Host} {handle : Word}

/-- What a request for input does to the host. -/
theorem read_stdin (hopen : h.channel? handle = some .stdin) (n : Nat) :
    h.read handle n =
      (((Source.fillFrom [] n h.stdin.events).bytes,
          (Source.fillFrom [] n h.stdin.events).failure.map .hostIo),
        { h with stdin := ⟨(Source.fillFrom [] n h.stdin.events).rest⟩ }) := by
  unfold read
  rw [hopen]
  rfl

theorem channel?_read_stdin (hopen : h.channel? handle = some .stdin) (n : Nat) :
    (h.read handle n).2.channel? handle = some .stdin := by
  rw [read_stdin hopen]
  exact hopen

/-- Input stays open while it is read. -/
theorem channel?_afterReads (hopen : h.channel? handle = some .stdin) (sizes : List Nat) :
    (h.afterReads handle sizes).channel? handle = some .stdin := by
  induction sizes generalizing h with
  | nil => exact hopen
  | cons n sizes ih => exact ih (channel?_read_stdin hopen n)

/-- A request takes its bytes from the front of the input. -/
theorem read_conserves (hopen : h.channel? handle = some .stdin) (n : Nat) :
    (h.read handle n).1.1 ++ Source.pending (h.read handle n).2.stdin.events =
      Source.pending h.stdin.events := by
  rcases Source.loop_fillFrom n h.stdin.events with ⟨calls, hloop⟩
  rw [read_stdin hopen]
  exact hloop.conserves

/-- What the requests get are the bytes that were to come, up to those that are still to come. -/
theorem received_conserves (hopen : h.channel? handle = some .stdin) (sizes : List Nat) :
    (h.received handle sizes).flatMap Prod.fst ++
        Source.pending (h.afterReads handle sizes).stdin.events =
      Source.pending h.stdin.events := by
  induction sizes generalizing h with
  | nil => rfl
  | cons n sizes ih =>
    have hrest := ih (channel?_read_stdin hopen n)
    calc
      (h.received handle (n :: sizes)).flatMap Prod.fst ++
          Source.pending (h.afterReads handle (n :: sizes)).stdin.events
        = (h.read handle n).1.1 ++ (((h.read handle n).2.received handle sizes).flatMap Prod.fst ++
            Source.pending ((h.read handle n).2.afterReads handle sizes).stdin.events) :=
          List.append_assoc _ _ _
      _ = (h.read handle n).1.1 ++ Source.pending (h.read handle n).2.stdin.events := by rw [hrest]
      _ = Source.pending h.stdin.events := read_conserves hopen n

/-- A request is answered the same without interruptions. -/
theorem read_uninterrupted (hopen : h.channel? handle = some .stdin) (n : Nat) :
    h.uninterrupted.read handle n =
      ((h.read handle n).1, (h.read handle n).2.uninterrupted) := by
  have hopen' : h.uninterrupted.channel? handle = some .stdin := hopen
  rw [read_stdin hopen', read_stdin hopen]
  unfold uninterrupted
  rw [Source.fillFrom_uninterrupted]

/-- Requests in a row are answered the same without interruptions. -/
theorem received_uninterrupted (hopen : h.channel? handle = some .stdin) (sizes : List Nat) :
    h.uninterrupted.received handle sizes = h.received handle sizes ∧
      h.uninterrupted.afterReads handle sizes = (h.afterReads handle sizes).uninterrupted := by
  induction sizes generalizing h with
  | nil => exact ⟨rfl, rfl⟩
  | cons n sizes ih =>
    rcases ih (channel?_read_stdin hopen n) with ⟨hreceived, hafter⟩
    have hread := read_uninterrupted hopen n
    constructor
    · rw [received, received, hread, hreceived]
    · unfold afterReads at hafter ⊢
      rw [List.foldl_cons, List.foldl_cons, hread, hafter]

/-- What a request for `n` bytes does: the loop of calls ends, and has one outcome. The bytes go to
the front of the buffer, the rest of which is as it was. They are fewer than were asked for, without
a failure, exactly if the input came to an end. -/
structure Answers (h : Host) (handle : Word) (n : Nat) (filled : Source.Filled) : Prop where
  loop_iff : ∀ other, (∃ calls, calls ≤ h.stdin.events.length + 1 ∧
    Source.Loop calls n h.stdin.events other) ↔ other = filled
  read_eq : h.read handle n =
    ((filled.bytes, filled.failure.map .hostIo), { h with stdin := ⟨filled.rest⟩ })
  room : filled.bytes.length ≤ n
  short_iff : filled.failure = none ∧ filled.bytes.length < n ↔
    Source.RunsOut h.stdin.events n filled.bytes filled.rest
  buffer : ∀ (m : Machine) (address : Word) (held : Bytes), m.host = h →
    m.heap.slice address n = .ok held →
    ∃ m' : Machine,
      m' = { m with
        host := { h with stdin := ⟨filled.rest⟩ }
        heap := m.heap.overwrite address filled.bytes } ∧
      m'.heap.slice address n = .ok (filled.bytes ++ held.drop filled.bytes.length) ∧
      (filled.failure = none →
        Interrupt.receive handle address n m = .ok filled.bytes.length m') ∧
      ∀ reason, filled.failure = some reason →
        Interrupt.receive handle address n m = .error (.hostIo reason) m'

/-- Every request for input is answered as specified. -/
theorem answers (hopen : h.channel? handle = some .stdin) (n : Nat) :
    h.Answers handle n (Source.fillFrom [] n h.stdin.events) := by
  have hread := read_stdin hopen n
  have hroom := length_read_le hread
  refine ⟨fun other => Source.exists_loop_iff, hread, hroom, ?_, ?_⟩
  · rw [← Source.fillFrom_short_iff]
    constructor
    · rintro ⟨hnone, hshort⟩
      exact ⟨by rw [← hnone], hshort⟩
    · rintro ⟨hfill, hshort⟩
      exact ⟨congrArg Source.Filled.failure hfill, hshort⟩
  · rintro m address held rfl hheld
    have hcovers : m.heap.covers address n = true := by
      rcases Heap.slice_ok_iff.1 hheld with ⟨r, hlookup, hfits, -⟩
      exact Heap.covers_iff.2 ⟨r, hlookup, hfits⟩
    refine ⟨_, rfl, Heap.slice_overwrite_front hheld hroom, ?_, ?_⟩
    · intro hnone
      rw [hnone] at hread
      exact Machine.receive_of_read hcovers hread
    · intro reason hfailed
      rw [hfailed] at hread
      exact Machine.receive_of_fault hcovers hread

/-- Requests to the input stream hand out its bytes once and in order: those that were handed out,
together with those still to come, are the bytes of its chunks. Without its interruptions the stream
gives the same answers. Each request ends, gives what its loop of calls has got, and leaves alone
what it does not fill of the buffer. -/
theorem input_conserved (h : Host) (handle : Word) (hopen : h.channel? handle = some .stdin)
    (sizes : List Nat) :
    (h.received handle sizes).flatMap Prod.fst ++
        Source.pending (h.afterReads handle sizes).stdin.events =
      Source.pending h.stdin.events ∧
    (h.uninterrupted.received handle sizes = h.received handle sizes ∧
      h.uninterrupted.afterReads handle sizes = (h.afterReads handle sizes).uninterrupted) ∧
    ∀ n, ∃ filled, (h.afterReads handle sizes).Answers handle n filled := by
  refine ⟨received_conserves hopen sizes, received_uninterrupted hopen sizes, fun n => ?_⟩
  exact ⟨_, answers (channel?_afterReads hopen sizes) n⟩

/-- A stream that is interrupted, comes to an end and goes on, and fails and goes on. The second
request meets the end, the third the failure. -/
theorem input_conserved_resumed :
    let h : Host := { stdin := ⟨[.interrupted, .chunk [1, 2, 3], .interrupted, .ended, .chunk [4],
      .interrupted, .failed "input failed", .chunk [5, 6]]⟩ }
    h.channel? 2 = some .stdin ∧
    h.received 2 [2, 4, 2, 1] =
      [([1, 2], none), ([3], none), ([4], some (.hostIo "input failed")), ([5], none)] ∧
    h.uninterrupted.received 2 [2, 4, 2, 1] = h.received 2 [2, 4, 2, 1] ∧
    (h.received 2 [2, 4, 2, 1]).flatMap Prod.fst ++ [6] = [1, 2, 3, 4, 5, 6] ∧
    Source.RunsOut (h.afterReads 2 [2]).stdin.events 4 [3]
      [.chunk [4], .interrupted, .failed "input failed", .chunk [5, 6]] := by
  intro h
  have hopen : h.channel? 2 = some .stdin := rfl
  rcases input_conserved h 2 hopen [2, 4, 2, 1] with ⟨hconserved, ⟨huninterrupted, -⟩, -⟩
  rcases (input_conserved h 2 hopen [2]).2.2 4 with ⟨filled, hanswers⟩
  have hread : ((h.afterReads 2 [2]).read 2 4).1 = ([3], none) := rfl
  have hrest : ((h.afterReads 2 [2]).read 2 4).2.stdin.events =
      [.chunk [4], .interrupted, .failed "input failed", .chunk [5, 6]] := rfl
  refine ⟨hopen, rfl, huninterrupted, hconserved, ?_⟩
  rw [hanswers.read_eq] at hread hrest
  rcases filled with ⟨bytes, failure, rest⟩
  cases failure with
  | some reason => cases hread
  | none =>
    cases hread
    cases hrest
    exact hanswers.short_iff.1 ⟨rfl, by decide⟩

end Host
end StackMachine
