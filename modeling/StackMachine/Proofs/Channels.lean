import Mathlib.Tactic.Common
import StackMachine.Host

/-!
# Channels — the handles of the host

A host keeps a table of the channels that are open. Slots of closed channels are used again, so the
same number stands for different files in the course of time, but never for two at once.

Whether a file can be opened, and what becomes of each call on a stream or a file, is up to the
outside: `Host.openings` and the events of the streams and files may be anything.

* `Host.Utters`, `Host.Echoes` — what the streams and files of a host may fail with, and whether
  that can be taken for the report of a bad handle;
* `Host.Request`, `Host.after` — what is asked of a host, in any order;
* `Host.Binds` — a file was opened, and got the smallest handle that was free;
* `Host.Orderly` — what opening, writing, reading and closing do to the table;
* `Host.opened`, `Host.closed` — how many files a run opens and how many channels it closes;
* `Host.handles_orderly` — the table is orderly along every run, and its size is known.

A handle has sixty-four bits. A run that is so long that they run out is left aside.
-/

namespace StackMachine

/-! ## Failures of streams -/

/-- What is left of a sink after calls that write to it. -/
structure Sink.Follows (s after : Sink) : Prop where
  events : ∀ event ∈ after.events, event ∈ s.events
  refusal : after.refusal = s.refusal
  flushes : after.flushes = s.flushes
  flushFailure : after.flushFailure = s.flushFailure

theorem Sink.Follows.trans {s t u : Sink} (hfirst : s.Follows t) (hthen : t.Follows u) :
    s.Follows u where
  events event hevent := hfirst.events event (hthen.events event hevent)
  refusal := hthen.refusal.trans hfirst.refusal
  flushes := hthen.flushes.trans hfirst.flushes
  flushFailure := hthen.flushFailure.trans hfirst.flushFailure

/-- Accepting bytes uses up no event. -/
theorem Sink.follows_accept (s : Sink) (data : Bytes) : s.Follows (s.accept data) :=
  ⟨fun _ hevent => hevent, rfl, rfl, rfl⟩

/-- What is left after a call are the events behind it. -/
theorem Sink.follows_of_call {s after : Sink} {data : Bytes} {event : Event}
    (hcall : s.call data = (event, after)) : s.Follows after := by
  unfold call at hcall
  split at hcall
  next first events hevents =>
    cases hcall
    refine ⟨fun event hevent => ?_, rfl, rfl, rfl⟩
    rw [hevents]
    exact List.mem_cons_of_mem _ hevent
  next =>
    cases hcall
    exact ⟨fun _ hevent => hevent, rfl, rfl, rfl⟩

/-- A call fails with an event of the sink, or with its refusal. -/
theorem Sink.reason_of_call {s after : Sink} {data : Bytes} {reason : String}
    (hcall : s.call data = (.failed reason, after)) :
    .failed reason ∈ s.events ∨ s.refusal = some reason := by
  unfold call at hcall
  split at hcall
  next event events hevents =>
    cases hcall
    rw [hevents]
    exact .inl List.mem_cons_self
  next =>
    have hsettled : s.settled data = .failed reason := congrArg Prod.fst hcall
    unfold settled at hsettled
    split at hsettled
    next hrefusal =>
      cases hsettled
      exact .inr hrefusal
    next => cases hsettled

/-- Writing fails as one of the calls does, or because a call accepts nothing. -/
theorem Sink.writeAll_error {data : Bytes} {s s' : Sink} {reason : String}
    (h : s.writeAll data = .error reason s') :
    (.failed reason ∈ s.events ∨ s.refusal = some reason) ∨ reason = stuck := by
  -- what a later sink may fail with is what the first one may fail with
  have hback {s t : Sink} (hfollows : s.Follows t)
      (hlater : (.failed reason ∈ t.events ∨ t.refusal = some reason) ∨ reason = stuck) :
      (.failed reason ∈ s.events ∨ s.refusal = some reason) ∨ reason = stuck := by
    rw [hfollows.refusal] at hlater
    exact hlater.imp_left (Or.imp_left (hfollows.events _))
  fun_induction writeAll data s with
  | case1 s => cases h
  | case2 data s hdata reason' after hcall =>
    cases h
    exact .inl (reason_of_call hcall)
  | case3 data s hdata after hcall ih => exact hback (follows_of_call hcall) (ih h)
  | case4 data s hdata after hcall =>
    cases h
    exact .inr rfl
  | case5 data s hdata n after hcall ih =>
    exact hback ((follows_of_call hcall).trans (follows_accept _ _)) (ih h)

/-- What is left after all bytes are written are the events behind the calls. -/
theorem Sink.follows_of_writeAll {data : Bytes} {s s' : Sink}
    (h : s.writeAll data = .ok () s') : s.Follows s' := by
  fun_induction writeAll data s with
  | case1 s =>
    cases h
    exact ⟨fun _ hevent => hevent, rfl, rfl, rfl⟩
  | case2 data s hdata reason after hcall => cases h
  | case3 data s hdata after hcall ih => exact (follows_of_call hcall).trans (ih h)
  | case4 data s hdata after hcall => cases h
  | case5 data s hdata n after hcall ih =>
    exact ((follows_of_call hcall).trans (follows_accept _ _)).trans (ih h)

/-- A flush fails for a reason that was given beforehand. -/
theorem Sink.reason_of_flush {s s' : Sink} {reason : String} (h : s.flush = .error reason s') :
    some reason ∈ s.flushes ∨ s.flushFailure = some reason := by
  unfold flush at h
  split at h
  next hflushes =>
    cases h
    rw [hflushes]
    exact .inl List.mem_cons_self
  next => cases h
  next hfailure =>
    cases h
    exact .inr hfailure
  next => cases h

/-- Reading fails with an event of the source. -/
theorem Source.mem_of_failure {got : Bytes} {n : Nat} {events : List Event} {reason : String}
    (h : (fillFrom got n events).failure = some reason) : .failed reason ∈ events := by
  fun_induction fillFrom got n events with
  | case4 got n reason' rest =>
    cases h
    exact List.mem_cons_self
  | case5 got n rest ih => exact List.mem_cons_of_mem _ (ih h)
  | case7 got n b bs rest chunk hshort ih => exact List.mem_cons_of_mem _ (ih h)
  | _ => cases h

/-- Some call on the sink may fail for this reason. -/
def Sink.Utters (s : Sink) (reason : String) : Prop :=
  (.failed reason ∈ s.events ∨ s.refusal = some reason) ∨
    some reason ∈ s.flushes ∨ s.flushFailure = some reason

namespace Host

variable {h h' : Host} {handle other : Word}

/-! ## Wordings -/

/-- Only a wording with the same first letter can be that of a bad handle. -/
theorem hostIo_ne_badHandle {reason : String} (hfirst : reason.toList.head? ≠ some 'b')
    (handle : Word) : .hostIo reason ≠ badHandle handle := by
  have hbad : (toString "bad file handle ").toList.head? = some 'b' := by decide
  intro heq
  injection heq with htext
  rw [htext, String.toList_append, List.head?_append, hbad] at hfirst
  exact hfirst rfl

/-- A stream that is not written does not look like a bad handle. -/
theorem unwritable_ne_badHandle (handle other : Word) :
    .hostIo s!"handle {handle} is not writable" ≠ badHandle other := by
  have hfirst : (toString "handle ").toList.head? = some 'h' := by decide
  refine hostIo_ne_badHandle ?_ other
  simp [hfirst]

theorem unreadable_ne_badHandle (handle other : Word) :
    .hostIo s!"handle {handle} is not readable" ≠ badHandle other := by
  have hfirst : (toString "handle ").toList.head? = some 'h' := by decide
  refine hostIo_ne_badHandle ?_ other
  simp [hfirst]

theorem obstacle_ne_badHandle (why : Obstacle) (handle : Word) :
    .hostIo why.message ≠ badHandle handle := by
  refine hostIo_ne_badHandle ?_ handle
  cases why with
  | _ => decide

theorem stuck_ne_badHandle (handle : Word) : .hostIo Sink.stuck ≠ badHandle handle :=
  hostIo_ne_badHandle (by decide) handle

/-- The outside may make some call on the channel fail for this reason. -/
def Utters (h : Host) (reason : String) : Channel → Prop
  | .stdout => h.stdout.Utters reason
  | .stdin => .failed reason ∈ h.stdin.events
  | .stderr => h.stderr.Utters reason
  | .file f => .failed reason ∈ f.reads ∨ .failed reason ∈ f.writes

/-- A stream or file that is open under the handle may fail by itself with the words for a bad
handle. -/
def Echoes (h : Host) (handle : Word) : Prop :=
  ∃ c reason, h.channel? handle = some c ∧ h.Utters reason c ∧ .hostIo reason = badHandle handle

/-- A sink looks like a bad handle only if its events have those words. -/
theorem reason_of_writeSink_error {s s' : Sink} {data : Bytes}
    (herror : writeSink s data = .error (badHandle handle) s') :
    ∃ reason, s.Utters reason ∧ .hostIo reason = badHandle handle := by
  unfold writeSink at herror
  split at herror
  next reason sink hwrite =>
    injection herror with hreason
    rcases Sink.writeAll_error hwrite with hfails | rfl
    · exact ⟨reason, .inl hfails, hreason⟩
    · exact absurd hreason (stuck_ne_badHandle handle)
  next sink hwrite =>
    split at herror
    next reason _ hflush =>
      injection herror with hreason
      have hfollows := Sink.follows_of_writeAll hwrite
      have hfails := Sink.reason_of_flush hflush
      rw [hfollows.flushes, hfollows.flushFailure] at hfails
      exact ⟨reason, .inr hfails, hreason⟩
    next => cases herror

/-- A file that is written fails with one of its own events, if it reports a bad handle. -/
theorem reason_of_fileSink_error {f : OpenFile} {s : Sink} {data : Bytes} {reason : String}
    (herror : (fileSink f).writeAll data = .error reason s)
    (hreason : .hostIo reason = badHandle handle) : .failed reason ∈ f.writes := by
  rcases Sink.writeAll_error herror with (hevent | hrefusal) | rfl
  · exact hevent
  · cases hrefusal
    exact absurd hreason (obstacle_ne_badHandle _ handle)
  · exact absurd hreason (stuck_ne_badHandle handle)

/-- A file looks like a bad handle only if its events have those words. -/
theorem reason_of_readFile {d : Directory} {f : OpenFile} {n : Nat} {reason : String}
    (hfailure : (readFile d f n).1.2 = some reason)
    (hreason : .hostIo reason = badHandle handle) : .failed reason ∈ f.reads := by
  rcases List.mem_append.1 (Source.mem_of_failure hfailure) with hevent | htail
  · exact hevent
  · -- the bytes of a file do not fail, and an obstacle has other words
    unfold unread at htail
    split at htail
    next =>
      split at htail
      next => cases List.mem_singleton.1 htail
      next =>
        cases List.mem_singleton.1 htail
        exact absurd hreason (obstacle_ne_badHandle _ handle)
    next =>
      cases List.mem_singleton.1 htail
      exact absurd hreason (obstacle_ne_badHandle _ handle)

/-! ## Reports -/

/-- Writing under a handle that is not open is a bad handle, and changes nothing. -/
theorem write_of_closed (hclosed : h.channel? handle = none) (data : Bytes) :
    write handle data h = .error (badHandle handle) h := by
  unfold write
  rw [hclosed]

theorem read_of_closed (hclosed : h.channel? handle = none) (n : Nat) :
    h.read handle n = (([], some (badHandle handle)), h) := by
  unfold read
  rw [hclosed]

theorem close_of_closed (hclosed : h.channel? handle = none) :
    close handle h = .error (badHandle handle) h := by
  unfold close
  rw [hclosed]

/-- Unless the outside itself has the words, a write reports a bad handle only if it is not open. -/
theorem closed_of_write {data : Bytes} (hechoes : ¬h.Echoes handle)
    (herror : write handle data h = .error (badHandle handle) h') : h.channel? handle = none := by
  unfold write at herror
  split at herror
  next hclosed => exact hclosed
  next hopen =>
    injection herror with hreason
    exact absurd hreason (unwritable_ne_badHandle handle handle)
  next hopen =>
    split at herror
    next => cases herror
    next hsink =>
      injection herror with hfault
      subst hfault
      rcases reason_of_writeSink_error hsink with ⟨reason, hutters, hreason⟩
      exact absurd ⟨.stdout, reason, hopen, hutters, hreason⟩ hechoes
  next hopen =>
    split at herror
    next => cases herror
    next hsink =>
      injection herror with hfault
      subst hfault
      rcases reason_of_writeSink_error hsink with ⟨reason, hutters, hreason⟩
      exact absurd ⟨.stderr, reason, hopen, hutters, hreason⟩ hechoes
  next f hopen =>
    split at herror
    next => cases herror
    next reason _ hsink =>
      injection herror with hreason
      have hutters := reason_of_fileSink_error hsink hreason
      exact absurd ⟨.file f, reason, hopen, .inr hutters, hreason⟩ hechoes

/-- Unless the outside itself has the words, a read reports a bad handle only if it is not open. -/
theorem closed_of_read {n : Nat} {bytes : Bytes} (hechoes : ¬h.Echoes handle)
    (hread : h.read handle n = ((bytes, some (badHandle handle)), h')) :
    h.channel? handle = none := by
  have hfault : (h.read handle n).1.2 = some (badHandle handle) := by rw [hread]
  unfold read at hfault
  split at hfault
  next hclosed => exact hclosed
  next hopen =>
    injection hfault with hreason
    exact absurd hreason (unreadable_ne_badHandle handle handle)
  next hopen =>
    injection hfault with hreason
    exact absurd hreason (unreadable_ne_badHandle handle handle)
  next hopen =>
    rcases Option.map_eq_some_iff.1 hfault with ⟨reason, hfailure, hreason⟩
    exact absurd ⟨.stdin, reason, hopen, Source.mem_of_failure hfailure, hreason⟩ hechoes
  next f hopen =>
    rcases Option.map_eq_some_iff.1 hfault with ⟨reason, hfailure, hreason⟩
    have hutters := reason_of_readFile hfailure hreason
    exact absurd ⟨.file f, reason, hopen, .inl hutters, hreason⟩ hechoes

/-- Closing an open handle takes its channel away, and fails if the stream cannot be flushed. -/
theorem close_of_open {c : Channel} (hopen : h.channel? handle = some c) :
    ∃ h', (close handle h = .ok () h' ∨
        ∃ reason, close handle h = .error (.hostIo reason) h' ∧ h.Utters reason c) ∧
      h'.channels = (h.rebind handle none).channels := by
  unfold close
  rw [hopen]
  cases c with
  | stdout =>
    dsimp only
    cases hflush : h.stdout.flush with
    | ok u stdout => exact ⟨_, .inl rfl, rfl⟩
    | error reason stdout => exact ⟨_, .inr ⟨reason, rfl, .inr (Sink.reason_of_flush hflush)⟩, rfl⟩
  | stdin => exact ⟨_, .inl rfl, rfl⟩
  | stderr =>
    dsimp only
    cases hflush : h.stderr.flush with
    | ok u stderr => exact ⟨_, .inl rfl, rfl⟩
    | error reason stderr => exact ⟨_, .inr ⟨reason, rfl, .inr (Sink.reason_of_flush hflush)⟩, rfl⟩
  | file f => exact ⟨_, .inl rfl, rfl⟩

/-- Unless the outside itself has the words, closing reports a bad handle only if it is not open. -/
theorem closed_of_close (hechoes : ¬h.Echoes handle)
    (herror : close handle h = .error (badHandle handle) h') : h.channel? handle = none := by
  cases hopen : h.channel? handle with
  | none => rfl
  | some c =>
    rcases close_of_open hopen with ⟨after, hok | ⟨reason, hfault, hutters⟩, -⟩
    · rw [hok] at herror
      cases herror
    · rw [hfault] at herror
      injection herror with hreason
      exact absurd ⟨c, reason, hopen, hutters, hreason⟩ hechoes

/-! ## Slots -/

/-- The channel at a place of the table, which is the handle less one. -/
def slot (h : Host) (place : Nat) : Option Channel := (h.channels[place]?).join

/-- Zero is no handle. -/
theorem channel?_zero (h : Host) : h.channel? 0 = none := rfl

/-- A handle is one more than its place in the table. -/
theorem channel?_of_toNat {place : Nat} (hplace : handle.toNat = place + 1) :
    h.channel? handle = h.slot place := by
  unfold channel?
  rw [hplace]
  rfl

theorem slot_of_lt {place : Nat} (hinside : place < h.channels.size) :
    h.slot place = h.channels[place] := by
  unfold slot
  rw [Array.getElem?_eq_getElem hinside]
  rfl

/-- An open handle has a place in the table. -/
theorem exists_place {c : Channel} (hopen : h.channel? handle = some c) :
    ∃ place, handle.toNat = place + 1 ∧ place < h.channels.size ∧ h.slot place = some c := by
  cases hplace : handle.toNat with
  | zero =>
    unfold channel? at hopen
    rw [hplace] at hopen
    cases hopen
  | succ place =>
    rw [channel?_of_toNat hplace] at hopen
    have hfound := Option.join_eq_some_iff.1 hopen
    exact ⟨place, rfl, (Array.getElem?_eq_some_iff.1 hfound).1, hopen⟩

/-- Changing a place of the table leaves all others. -/
theorem slot_setIfInBounds {place : Nat} (hinside : place < h.channels.size)
    (new : Option Channel) (other : Nat) :
    { h with channels := h.channels.setIfInBounds place new }.slot other =
      if other = place then new else h.slot other := by
  unfold slot
  rw [Array.getElem?_setIfInBounds]
  by_cases hsame : place = other
  · rw [if_pos hsame, if_pos hinside, if_pos hsame.symm]
    rfl
  · rw [if_neg hsame, if_neg (Ne.symm hsame)]

/-- What changes at one place of the table changes at one handle. -/
theorem channel?_of_slot {place : Nat} (hplace : handle.toNat = place + 1) {new : Option Channel}
    (hslot : ∀ other, h'.slot other = if other = place then new else h.slot other)
    (other : Word) : h'.channel? other = if other = handle then new else h.channel? other := by
  cases hother : other.toNat with
  | zero =>
    have hne : other ≠ handle := by
      rintro rfl
      omega
    rw [if_neg hne]
    unfold channel?
    rw [hother]
  | succ place' =>
    rw [channel?_of_toNat hother, channel?_of_toNat hother, hslot]
    by_cases hsame : place' = place
    · have heq : other = handle := by
        rw [← UInt64.toNat_inj]
        omega
      rw [if_pos hsame, if_pos heq]
    · have hne : other ≠ handle := by
        rintro rfl
        omega
      rw [if_neg hsame, if_neg hne]

/-- Changing the channel of an open handle changes nothing for the others. -/
theorem channel?_rebind {c : Channel} (hopen : h.channel? handle = some c) (new : Option Channel)
    (other : Word) :
    (h.rebind handle new).channel? other = if other = handle then new else h.channel? other := by
  rcases exists_place hopen with ⟨place, hplace, hinside, -⟩
  -- the handle is open, so it is not zero, and the place before it is its own
  have hindex : handle.toNat - 1 = place := by omega
  refine channel?_of_slot hplace (fun other => ?_) other
  unfold rebind
  rw [hindex]
  exact slot_setIfInBounds hinside new other

/-- Changing one place of the table changes the number of open handles by what was and is there. -/
theorem openHandles_setIfInBounds {place : Nat} (hinside : place < h.channels.size)
    (new : Option Channel) :
    { h with channels := h.channels.setIfInBounds place new }.openHandles +
        (if (h.slot place).isSome then 1 else 0) =
      h.openHandles + (if new.isSome then 1 else 0) := by
  -- an open channel at the place has been counted, so that it can be taken off
  have hcounted : (if h.channels[place].isSome then 1 else 0) ≤ h.openHandles := by
    split
    next hsome => exact Array.countP_pos_iff.2 ⟨_, Array.getElem_mem hinside, hsome⟩
    next => exact Nat.zero_le _
  have hset : { h with channels := h.channels.setIfInBounds place new }.openHandles =
      h.openHandles - (if h.channels[place].isSome then 1 else 0) +
        (if new.isSome then 1 else 0) := by
    unfold openHandles Array.setIfInBounds
    rw [dif_pos hinside, Array.countP_set]
  rw [hset, slot_of_lt hinside]
  omega

/-- The first free place of the table, which may be the one behind its end. -/
structure FirstFree (h : Host) (place : Nat) : Prop where
  le : place ≤ h.channels.size
  free : h.slot place = none
  taken : ∀ {before : Nat}, before < place → h.slot before ≠ none

/-- The channel is put at the first free place, and everything else stays. -/
structure Placed (h : Host) (c : Channel) (place : Nat) (h' : Host) : Prop where
  first : h.FirstFree place
  rest : h' = { h with channels := h'.channels }
  slot : ∀ other, h'.slot other = if other = place then some c else h.slot other
  count : h'.openHandles = h.openHandles + 1
  size : h'.channels.size ≤ h.channels.size + 1

/-- A place that has become free is used again. -/
theorem placed_reused {place : Nat} (c : Channel)
    (hfind : h.channels.findIdx? Option.isNone = some place) :
    h.Placed c place { h with channels := h.channels.setIfInBounds place (some c) } := by
  rcases Array.findIdx?_eq_some_iff_getElem.1 hfind with ⟨hinside, hfree, htaken⟩
  have hnone : h.slot place = none := by
    rw [slot_of_lt hinside]
    exact Option.isNone_iff_eq_none.1 hfree
  refine ⟨⟨Nat.le_of_lt hinside, hnone, ?_⟩, rfl, ?_, ?_, ?_⟩
  · intro before hbefore hempty
    rw [slot_of_lt (Nat.lt_trans hbefore hinside)] at hempty
    exact htaken before hbefore (Option.isNone_iff_eq_none.2 hempty)
  · exact slot_setIfInBounds hinside (some c)
  · have hcount := openHandles_setIfInBounds hinside (some c)
    rw [hnone] at hcount
    exact hcount
  · rw [Array.size_setIfInBounds]
    exact Nat.le_succ _

/-- If no place is free, the table grows by one. -/
theorem placed_behind (c : Channel) (hfind : h.channels.findIdx? Option.isNone = none) :
    h.Placed c h.channels.size { h with channels := h.channels.push (some c) } := by
  have hfull : ∀ found ∈ h.channels, found.isNone = false := Array.findIdx?_eq_none_iff.1 hfind
  refine ⟨⟨Nat.le_refl _, ?_, ?_⟩, rfl, ?_, ?_, ?_⟩
  · unfold slot
    rw [Array.getElem?_eq_none (Nat.le_refl _)]
    rfl
  · intro before hbefore hempty
    rw [slot_of_lt hbefore] at hempty
    have hsome := hfull _ (Array.getElem_mem hbefore)
    rw [Option.isNone_iff_eq_none.2 hempty] at hsome
    cases hsome
  · intro other
    unfold slot
    rw [Array.getElem?_push]
    by_cases hsame : other = h.channels.size
    · rw [if_pos hsame, if_pos hsame]
      rfl
    · rw [if_neg hsame, if_neg hsame]
  · unfold openHandles
    rw [Array.countP_push]
    rfl
  · exact Nat.le_of_eq (Array.size_push _)

/-- A channel is bound at the first free place. -/
theorem exists_placed (h : Host) (c : Channel) :
    ∃ place, h.Placed c place (h.bind c).2 ∧ (h.bind c).1 = UInt64.ofNat (place + 1) := by
  unfold bind
  cases hfind : h.channels.findIdx? Option.isNone with
  | some place => exact ⟨place, placed_reused c hfind, rfl⟩
  | none => exact ⟨h.channels.size, placed_behind c hfind, rfl⟩

/-! ## Opening -/

/-- The outside does not give the file: its path is no text, its mode is none, or the host refuses.
-/
def Refuses (h : Host) (path mode : Bytes) : Prop :=
  ∀ name purpose, Utf8.decode? path = some name → purpose? mode = some purpose →
    (h.acquire name purpose).1 = none

/-- A file was opened: the handle is the smallest that was free, and stands for the file that the
outside has given from then on. -/
structure Binds (h : Host) (path mode : Bytes) (handle : Word) (h' : Host) : Prop where
  ne_zero : handle ≠ 0
  free : h.channel? handle = none
  smallest : ∀ other, other ≠ 0 → other < handle → h.channel? other ≠ none
  file : ∃ name purpose file host, Utf8.decode? path = some name ∧ purpose? mode = some purpose ∧
    h.acquire name purpose = (some file, host) ∧ h'.channel? handle = some (.file file) ∧
    h' = { host with channels := h'.channels }
  others : ∀ other, other ≠ handle → h'.channel? other = h.channel? other

/-- Whatever the outside does when it is asked for a file, the table is not its business. -/
theorem channels_acquire (h : Host) (path : String) (purpose : Purpose) :
    (h.acquire path purpose).2.channels = h.channels := by
  unfold acquire
  split
  next => rfl
  next => rfl
  next =>
    split
    next => rfl
    next => rfl

/-- As long as the table is not as long as there are handles, the place is told by the handle. -/
theorem Placed.toNat_handle {c : Channel} {place : Nat} (hplaced : h.Placed c place h')
    (hroom : h.channels.size + 1 < UInt64.size) : (UInt64.ofNat (place + 1)).toNat = place + 1 :=
  UInt64.toNat_ofNat_of_lt' (Nat.lt_of_le_of_lt (Nat.succ_le_succ hplaced.first.le) hroom)

/-- All handles below the first free one are open. -/
theorem FirstFree.smallest {place : Nat} (hfirst : h.FirstFree place)
    (hhandle : handle.toNat = place + 1) (hother : other ≠ 0) (hlt : other < handle) :
    h.channel? other ≠ none := by
  cases hplace : other.toNat with
  | zero => exact absurd (UInt64.toNat_inj.1 hplace) hother
  | succ place' =>
    have hbefore : place' < place := by
      have hbelow := UInt64.lt_iff_toNat_lt.1 hlt
      omega
    rw [channel?_of_toNat hplace]
    exact hfirst.taken hbefore

/-- Opening fails and leaves the table alone, or puts a file at the first free place. -/
theorem openPath_cases (h : Host) (path mode : Bytes) :
    (h.Refuses path mode ∧ (h.openPath path mode).1 = 0 ∧
      (h.openPath path mode).2.channels = h.channels) ∨
    ∃ name purpose file host place, Utf8.decode? path = some name ∧
      purpose? mode = some purpose ∧ h.acquire name purpose = (some file, host) ∧
      host.channels = h.channels ∧ host.Placed (.file file) place (h.openPath path mode).2 ∧
      (h.openPath path mode).1 = UInt64.ofNat (place + 1) := by
  unfold openPath Refuses
  cases hname : Utf8.decode? path with
  | none => exact .inl ⟨fun _ _ hsome => (nomatch hsome), rfl, rfl⟩
  | some name =>
    cases hpurpose : purpose? mode with
    | none => exact .inl ⟨fun _ _ _ hsome => (nomatch hsome), rfl, rfl⟩
    | some purpose =>
      have hchannels := h.channels_acquire name purpose
      cases hacquire : h.acquire name purpose with
      | mk answer host =>
        rw [hacquire] at hchannels
        cases answer with
        | none =>
          refine .inl ⟨?_, ?_, ?_⟩
          · rintro _ _ ⟨⟩ ⟨⟩
            rw [hacquire]
          · simp only [hacquire]
          · simp only [hacquire]
            exact hchannels
        | some file =>
          rcases exists_placed host (.file file) with ⟨place, hplaced, hhandle⟩
          refine .inr ⟨name, purpose, file, host, place, rfl, rfl, hacquire, hchannels, ?_⟩
          simp only [hacquire]
          exact ⟨hplaced, hhandle⟩

/-- The channels are told by the table. -/
theorem channel?_congr (hchannels : h'.channels = h.channels) (handle : Word) :
    h'.channel? handle = h.channel? handle := by
  unfold channel?
  rw [hchannels]

/-- Opening fails and leaves the table alone, or binds the file to the smallest free handle. -/
theorem binds_or_eq (hroom : h.channels.size + 1 < UInt64.size) (path mode : Bytes) :
    (h.Refuses path mode ∧ (h.openPath path mode).1 = 0 ∧
      (h.openPath path mode).2.channels = h.channels) ∨
    h.Binds path mode (h.openPath path mode).1 (h.openPath path mode).2 := by
  rcases h.openPath_cases path mode with hfails | ⟨name, purpose, file, host, place, hname,
    hpurpose, hacquire, hchannels, hplaced, hhandle⟩
  · exact .inl hfails
  · have htoNat : (h.openPath path mode).1.toNat = place + 1 := by
      rw [hhandle]
      exact hplaced.toNat_handle (hchannels ▸ hroom)
    have hchannel := channel?_of_slot htoNat hplaced.slot
    refine .inr ⟨?_, ?_, ?_, ⟨name, purpose, file, host, hname, hpurpose, hacquire, ?_,
      hplaced.rest⟩, ?_⟩
    · intro hzero
      rw [hzero] at htoNat
      cases htoNat
    · rw [← channel?_congr hchannels, channel?_of_toNat htoNat]
      exact hplaced.first.free
    · intro other hother hlt
      rw [← channel?_congr hchannels]
      exact hplaced.first.smallest htoNat hother hlt
    · rw [hchannel, if_pos rfl]
    · intro other hother
      rw [hchannel, if_neg hother]
      exact channel?_congr hchannels other

/-! ## Requests -/

inductive Request where
  | openPath (path mode : Bytes)
  | write (handle : Word) (data : Bytes)
  | read (handle : Word) (n : Nat)
  | close (handle : Word)

def left (x : EStateM Fault Host Unit) (h : Host) : Host :=
  match x h with
  | .ok _ h' => h'
  | .error _ h' => h'

def Request.apply (h : Host) : Request → Host
  | .openPath path mode => (h.openPath path mode).2
  | .write handle data => left (Host.write handle data) h
  | .read handle n => (h.read handle n).2
  | .close handle => left (Host.close handle) h

def after (h : Host) (requests : List Request) : Host := requests.foldl Request.apply h

/-- Whether a request opens a file: the answer is a handle. -/
def Request.opens (h : Host) : Request → Bool
  | .openPath path mode => (h.openPath path mode).1 ≠ 0
  | _ => false

/-- Whether a request closes a channel: the handle is open. -/
def Request.closes (h : Host) : Request → Bool
  | .close handle => (h.channel? handle).isSome
  | _ => false

def opened (h : Host) : List Request → Nat
  | [] => 0
  | r :: requests => (r.opens h).toNat + (r.apply h).opened requests

def closed (h : Host) : List Request → Nat
  | [] => 0
  | r :: requests => (r.closes h).toNat + (r.apply h).closed requests

/-- Closing an open handle empties its place, whether it succeeds or not. -/
theorem channels_left_close {c : Channel} (hopen : h.channel? handle = some c) :
    (left (close handle) h).channels = (h.rebind handle none).channels := by
  unfold left
  rcases close_of_open hopen with ⟨after, hok | ⟨reason, hfault, -⟩, hchannels⟩
  · rw [hok]
    exact hchannels
  · rw [hfault]
    exact hchannels

/-- Closing a handle that is not open leaves the host as it was. -/
theorem left_close_of_closed (hclosed : h.channel? handle = none) : left (close handle) h = h := by
  unfold left
  rw [close_of_closed hclosed]

/-! ## Reading and writing -/

/-- The table is as it was, except that the file of an open handle may have moved on. -/
inductive MovesOn (h h' : Host) : Prop
  | stays (hchannels : h'.channels = h.channels)
  | file {handle f f'} (hopen : h.channel? handle = some (.file f))
      (hchannels : h'.channels = (h.rebind handle (some (.file f'))).channels)

/-- A write moves on at most the file of its handle. -/
theorem movesOn_write (handle : Word) (data : Bytes) (h : Host) :
    h.MovesOn (left (write handle data) h) := by
  unfold left write
  cases hopen : h.channel? handle with
  | none => exact .stays rfl
  | some c =>
    cases c with
    | stdin => exact .stays rfl
    | stdout =>
      dsimp only
      cases writeSink h.stdout data with
      | ok u sink => exact .stays rfl
      | error e sink => exact .stays rfl
    | stderr =>
      dsimp only
      cases writeSink h.stderr data with
      | ok u sink => exact .stays rfl
      | error e sink => exact .stays rfl
    | file f =>
      dsimp only
      cases (fileSink f).writeAll data with
      | ok u s => exact .file hopen rfl
      | error reason s => exact .file hopen rfl

theorem movesOn_read (handle : Word) (n : Nat) (h : Host) : h.MovesOn (h.read handle n).2 := by
  unfold read
  cases hopen : h.channel? handle with
  | none => exact .stays rfl
  | some c =>
    cases c with
    | stdin => exact .stays rfl
    | stdout => exact .stays rfl
    | stderr => exact .stays rfl
    | file f => exact .file hopen rfl

/-- The same handles are open while files move on. -/
theorem MovesOn.isSome_channel? (hmoves : h.MovesOn h') (handle : Word) :
    (h'.channel? handle).isSome = (h.channel? handle).isSome := by
  cases hmoves with
  | stays hchannels => rw [channel?_congr hchannels]
  | @file moved f f' hopen hchannels =>
    rw [channel?_congr hchannels, channel?_rebind hopen]
    by_cases hsame : handle = moved
    · rw [if_pos hsame, hsame, hopen]
      rfl
    · rw [if_neg hsame]

/-! ## Counting -/

/-- Changing the channel of an open handle leaves one open handle less if nothing takes its place.
-/
theorem openHandles_rebind {c : Channel} (hopen : h.channel? handle = some c)
    (new : Option Channel) :
    (h.rebind handle new).openHandles + 1 = h.openHandles + new.isSome.toNat := by
  rcases exists_place hopen with ⟨place, hplace, hinside, hslot⟩
  have hcount := openHandles_setIfInBounds hinside new
  have hindex : handle.toNat - 1 = place := by omega
  rw [hslot] at hcount
  unfold rebind
  rw [hindex]
  cases new with
  | none => exact hcount
  | some c' => exact hcount

theorem openHandles_congr (hchannels : h'.channels = h.channels) :
    h'.openHandles = h.openHandles := by
  unfold openHandles
  rw [hchannels]

/-- As many handles are open while files move on. -/
theorem MovesOn.openHandles_eq (hmoves : h.MovesOn h') : h'.openHandles = h.openHandles := by
  cases hmoves with
  | stays hchannels => exact openHandles_congr hchannels
  | @file moved f f' hopen hchannels =>
    have hcount := openHandles_rebind hopen (some (.file f'))
    rw [openHandles_congr hchannels]
    exact Nat.add_right_cancel hcount

theorem MovesOn.size_eq (hmoves : h.MovesOn h') : h'.channels.size = h.channels.size := by
  cases hmoves with
  | stays hchannels => rw [hchannels]
  | file hopen hchannels =>
    rw [hchannels]
    exact Array.size_setIfInBounds

/-- A request makes the table longer by one at most. -/
theorem size_apply_le (h : Host) (r : Request) :
    (r.apply h).channels.size ≤ h.channels.size + 1 := by
  cases r with
  | openPath path mode =>
    rw [Request.apply]
    rcases h.openPath_cases path mode with ⟨-, -, hsame⟩ | ⟨_, _, _, host, _, -, -, -, hsame,
      hplaced, -⟩
    · rw [hsame]
      exact Nat.le_succ _
    · rw [← hsame]
      exact hplaced.size
  | write handle data =>
    rw [Request.apply, (movesOn_write handle data h).size_eq]
    exact Nat.le_succ _
  | read handle n =>
    rw [Request.apply, (movesOn_read handle n h).size_eq]
    exact Nat.le_succ _
  | close handle =>
    rw [Request.apply]
    cases hopen : h.channel? handle with
    | none =>
      rw [left_close_of_closed hopen]
      exact Nat.le_succ _
    | some c =>
      have hsize : (h.rebind handle none).channels.size = h.channels.size :=
        Array.size_setIfInBounds
      rw [channels_left_close hopen, hsize]
      exact Nat.le_succ _

/-- A request opens at most one channel and closes at most one. -/
theorem openHandles_apply (hroom : h.channels.size + 1 < UInt64.size) (r : Request) :
    (r.apply h).openHandles + (r.closes h).toNat = h.openHandles + (r.opens h).toNat := by
  cases r with
  | openPath path mode =>
    rcases h.openPath_cases path mode with ⟨-, hzero, hsame⟩ | ⟨_, _, _, host, place, -, -, -,
      hsame, hplaced, hhandle⟩
    · have hopens : (Request.openPath path mode).opens h = false := by
        rw [Request.opens, hzero]
        rfl
      rw [hopens]
      exact openHandles_congr hsame
    · have hvalid : (h.openPath path mode).1 ≠ 0 := by
        intro hzero
        have htoNat := hplaced.toNat_handle (hsame ▸ hroom)
        rw [← hhandle, hzero] at htoNat
        cases htoNat
      have hopens : (Request.openPath path mode).opens h = true := decide_eq_true hvalid
      rw [hopens, ← openHandles_congr hsame]
      exact hplaced.count
  | write handle data => exact (movesOn_write handle data h).openHandles_eq
  | read handle n => exact (movesOn_read handle n h).openHandles_eq
  | close handle =>
    show (left (close handle) h).openHandles + (h.channel? handle).isSome.toNat = h.openHandles
    cases hopen : h.channel? handle with
    | none =>
      rw [left_close_of_closed hopen]
      rfl
    | some c =>
      rw [openHandles_congr (channels_left_close hopen)]
      exact openHandles_rebind hopen none

/-- What was open and what a run opens is what it closes and what is open after it. -/
theorem openHandles_after {requests : List Request}
    (hroom : h.channels.size + requests.length < UInt64.size) :
    (h.after requests).openHandles + h.closed requests = h.openHandles + h.opened requests := by
  induction requests generalizing h with
  | nil => rfl
  | cons r requests ih =>
    rw [List.length_cons] at hroom
    -- each request takes up one place at most, which the bound leaves room for
    have hsize := h.size_apply_le r
    have hrest := ih (h := r.apply h) (by omega)
    have hfirst := openHandles_apply (h := h) (by omega) r
    calc (h.after (r :: requests)).openHandles + h.closed (r :: requests)
        = ((r.apply h).after requests).openHandles + (r.apply h).closed requests +
            (r.closes h).toNat := by
          rw [closed]
          show ((r.apply h).after requests).openHandles + _ = _
          omega
      _ = (r.apply h).openHandles + (r.closes h).toNat + (r.apply h).opened requests := by
          rw [hrest]
          omega
      _ = h.openHandles + h.opened (r :: requests) := by
          rw [hfirst, opened]
          omega

/-- Requests in a row make the table longer by one each at most. -/
theorem size_after_le (h : Host) (requests : List Request) :
    (h.after requests).channels.size ≤ h.channels.size + requests.length := by
  induction requests generalizing h with
  | nil => exact Nat.le_refl _
  | cons r requests ih =>
    have hrest : (h.after (r :: requests)).channels.size ≤
        (r.apply h).channels.size + requests.length := ih (r.apply h)
    have hfirst := h.size_apply_le r
    rw [List.length_cons]
    omega

/-! ## Runs -/

/-- What opening, writing, reading and closing do to the table of open channels. -/
structure Orderly (h : Host) : Prop where
  /-- Opening answers zero and leaves the table alone, if the outside does not give the file, or
  binds the smallest free handle to it. -/
  opens : ∀ path mode,
    (h.Refuses path mode ∧ (h.openPath path mode).1 = 0 ∧
      (h.openPath path mode).2.channels = h.channels) ∨
    h.Binds path mode (h.openPath path mode).1 (h.openPath path mode).2
  /-- Zero is never open. -/
  zero : h.channel? 0 = none
  /-- A handle that is not open is reported as bad, and nothing changes. -/
  refuses : ∀ handle, h.channel? handle = none →
    (∀ data, write handle data h = .error (badHandle handle) h) ∧
    (∀ n, h.read handle n = (([], some (badHandle handle)), h)) ∧
    close handle h = .error (badHandle handle) h
  /-- A handle that is open is not, unless its own stream or file may fail with these words. -/
  serves : ∀ handle, h.channel? handle ≠ none → ¬h.Echoes handle →
    (∀ data h', write handle data h ≠ .error (badHandle handle) h') ∧
    (∀ n bytes h', h.read handle n ≠ ((bytes, some (badHandle handle)), h')) ∧
    ∀ h', close handle h ≠ .error (badHandle handle) h'
  /-- Closing makes exactly that handle not open, whether or not the stream can be flushed. -/
  closes : ∀ handle other,
    (left (close handle) h).channel? other = if other = handle then none else h.channel? other
  /-- Writing and reading do not change which handles are open. -/
  keeps : ∀ handle other,
    (∀ data, ((left (write handle data) h).channel? other).isSome = (h.channel? other).isSome) ∧
    ∀ n, ((h.read handle n).2.channel? other).isSome = (h.channel? other).isSome

/-- Closing makes exactly that handle not open. -/
theorem channel?_left_close (h : Host) (handle other : Word) :
    (left (close handle) h).channel? other =
      if other = handle then none else h.channel? other := by
  cases hopen : h.channel? handle with
  | none =>
    rw [left_close_of_closed hopen]
    split
    next hsame =>
      rw [hsame]
      exact hopen
    next => rfl
  | some c => rw [channel?_congr (channels_left_close hopen), channel?_rebind hopen]

/-- A host is orderly as long as its table is not as long as there are handles. -/
theorem orderly_of_size (hroom : h.channels.size + 1 < UInt64.size) : h.Orderly where
  opens path mode := binds_or_eq hroom path mode
  zero := h.channel?_zero
  refuses _ hclosed :=
    ⟨write_of_closed hclosed, read_of_closed hclosed, close_of_closed hclosed⟩
  serves _ hopen hechoes :=
    ⟨fun _ _ herror => hopen (closed_of_write hechoes herror),
      fun _ _ _ hread => hopen (closed_of_read hechoes hread),
      fun _ herror => hopen (closed_of_close hechoes herror)⟩
  closes := h.channel?_left_close
  keeps handle other :=
    ⟨fun data => (movesOn_write handle data h).isSome_channel? other,
      fun n => (movesOn_read handle n h).isSome_channel? other⟩

/-- Whatever is asked of a host that starts with its three streams, and whatever the outside does
meanwhile, its handles stay in order, and those that are open are the three and the files that were
opened, less those that were closed. -/
theorem handles_orderly (first : Host)
    (hfirst : first.channels = #[some .stdout, some .stdin, some .stderr])
    (requests : List Request) (hbound : requests.length + 4 < UInt64.size) :
    (first.after requests).Orderly ∧
      (first.after requests).openHandles + first.closed requests = 3 + first.opened requests := by
  have hthree : first.channels.size = 3 ∧ first.openHandles = 3 := by
    unfold openHandles
    rw [hfirst]
    exact ⟨rfl, rfl⟩
  have hsize : (first.after requests).channels.size ≤ 3 + requests.length := by
    rw [← hthree.1]
    exact first.size_after_le requests
  refine ⟨orderly_of_size (by omega), ?_⟩
  have hcount : (first.after requests).openHandles + first.closed requests =
      first.openHandles + first.opened requests := openHandles_after (by omega)
  rw [hthree.2] at hcount
  exact hcount

/-- A file gets the fourth handle. The next one cannot be opened, and the one after it gets the
first handle, since the output stream was closed, though it could not be flushed. -/
theorem handles_orderly_reused :
    let first : Host :=
      { stdout := { flushes := [some "no space"] }
        directory := { files := [("a", []), ("b", [])] }
        openings := [.granted [] [], .refused, .granted [.chunk [7], .failed "gone"] []] }
    let requests : List Request :=
      [.openPath [0x61] [0x72], .close 1, .openPath [0x62] [0x77], .openPath [0x62] [0x77],
        .read 1 4]
    (first.after requests).Orderly ∧ (first.after requests).openHandles = 4 ∧
      first.opened requests = 2 ∧ first.closed requests = 1 ∧
      (first.after requests).channel? 1 = some (.file
        { number := some 1, offset := 1, readable := false, writable := true }) ∧
      close 5 (first.after requests) = .error (badHandle 5) (first.after requests) := by
  intro first requests
  have hopened : first.opened requests = 2 := by decide +kernel
  have hclosed : first.closed requests = 1 := by decide +kernel
  have hfile : (first.after requests).channel? 1 = some (.file
      { number := some 1, offset := 1, readable := false, writable := true }) := by decide +kernel
  have hfree : (first.after requests).channel? 5 = none := by decide +kernel
  rcases handles_orderly first rfl requests (by decide) with ⟨horderly, hcount⟩
  refine ⟨horderly, ?_, hopened, hclosed, hfile, (horderly.refuses 5 hfree).2.2⟩
  rw [hopened, hclosed] at hcount
  exact Nat.add_right_cancel hcount

end Host
end StackMachine
