import StackMachine.Proofs.Footprint
import StackMachine.Proofs.ReadWrite

/-!
# BrokenInput — what a read that fails leaves behind

Input goes straight into the buffer of the guest, chunk by chunk, whether it comes from the input
stream or from a file. When the stream or the file fails after some chunks have arrived, the step
faults, but the chunks stay where they are. Every other fault of the service comes before the first
byte.

* `Source.Breaks` — a stream yields some bytes, fewer than were asked for, and then fails;
* `Source.fillFrom_failure_iff` — reading a stream fails exactly if it breaks like that;
* `Host.source?` — the stream that is read under a handle;
* `Machine.Spills` — the next instruction reads under a handle whose stream breaks;
* `Machine.failed_read_exact` — the bytes that arrived are in guest memory and nothing else has
  changed, so that guest memory is as before exactly if it held those bytes already;
* `Machine.failed_read_spoils` — a run in which it did not.
-/

namespace StackMachine

/-! ## Streams that fail -/

namespace Source

def Event.bytes : Event → Bytes
  | .chunk bytes => bytes
  | _ => []

/-- Reading goes on behind the event: it is an interruption, or brings bytes. -/
def Event.GoesOn (e : Event) : Prop := e = .interrupted ∨ e.bytes ≠ []

/-- The stream yields bytes, fewer than `n`, and then fails. -/
structure Breaks (events : List Event) (n : Nat) (bytes : Bytes) (reason : String)
    (rest : List Event) : Prop where
  split : ∃ before, events = before ++ .failed reason :: rest ∧ (∀ e ∈ before, e.GoesOn) ∧
    bytes = before.flatMap Event.bytes
  short : bytes.length < n

/-- A stream still breaks behind an event that goes on. -/
theorem Breaks.cons {events rest : List Event} {n : Nat} {bytes : Bytes} {reason : String}
    {e : Event} (he : e.GoesOn) (h : Breaks events (n - e.bytes.length) bytes reason rest) :
    Breaks (e :: events) n (e.bytes ++ bytes) reason rest := by
  rcases h with ⟨⟨before, rfl, hbefore, rfl⟩, hshort⟩
  refine ⟨⟨e :: before, rfl, ?_, rfl⟩, ?_⟩
  · intro e' he'
    rcases List.mem_cons.1 he' with rfl | hmem
    · exact he
    · exact hbefore e' hmem
  · rw [List.length_append]
    omega

/-- A read that fails has met a stream that breaks. -/
theorem breaks_of_failure {got all : Bytes} {n : Nat} {events rest : List Event} {reason : String}
    (h : fillFrom got n events = ⟨all, some reason, rest⟩) :
    ∃ bytes, all = got ++ bytes ∧ Breaks events n bytes reason rest := by
  -- reading ends with a reason at a failure only, and passes interruptions and short chunks
  fun_induction fillFrom got n events with
  | case4 got n reason' rest' =>
    cases h
    refine ⟨[], (List.append_nil _).symm, ⟨[], rfl, ?_, rfl⟩, Nat.succ_pos n⟩
    intro e he
    cases he
  | case5 got n rest' ih =>
    rcases ih h with ⟨bytes, hall, hbreaks⟩
    exact ⟨bytes, hall, hbreaks.cons (.inl rfl)⟩
  | case7 got n b bs rest' chunk hshort ih =>
    rcases ih h with ⟨bytes, hall, hbreaks⟩
    refine ⟨chunk ++ bytes, ?_, ?_⟩
    · rw [hall, List.append_assoc]
    · exact hbreaks.cons (e := .chunk chunk) (.inr (List.cons_ne_nil b bs))
  | _ => cases h

/-- Events behind which reading goes on are passed one by one, if there is room for all of their
bytes and more. -/
theorem fillFrom_append {before : List Event} (hbefore : ∀ e ∈ before, e.GoesOn) {got : Bytes}
    {n : Nat} {after : List Event} (hshort : (before.flatMap Event.bytes).length < n) :
    fillFrom got n (before ++ after) =
      fillFrom (got ++ before.flatMap Event.bytes) (n - (before.flatMap Event.bytes).length)
        after := by
  induction before generalizing got n with
  | nil => simp
  | cons e before ih =>
    rw [List.flatMap_cons, List.length_append] at hshort
    have hrest : ∀ e' ∈ before, e'.GoesOn := fun e' he' =>
      hbefore e' (List.mem_cons_of_mem e he')
    cases n with
    | zero => cases hshort
    | succ n =>
      rcases hbefore e List.mem_cons_self with rfl | hbytes
      · rw [List.cons_append, fillFrom]
        exact ih hrest (by simpa [Event.bytes] using hshort)
      · cases e with
        | chunk bytes =>
          cases bytes with
          | nil => exact absurd rfl hbytes
          | cons b bs =>
            have hchunk : (Event.chunk (b :: bs)).bytes = b :: bs := rfl
            rw [hchunk] at hshort
            rw [List.cons_append, fillFrom, if_pos (by omega), ih hrest (by omega),
              List.flatMap_cons, hchunk, List.append_assoc, List.length_append, Nat.sub_sub]
        | interrupted => exact absurd rfl hbytes
        | ended => exact absurd rfl hbytes
        | failed reason' => exact absurd rfl hbytes

/-- A read gets all bytes in front of the failure, if they are fewer than were asked for. -/
theorem fillFrom_of_goesOn {before : List Event} (hbefore : ∀ e ∈ before, e.GoesOn) {got : Bytes}
    {n : Nat} {rest : List Event} {reason : String}
    (hshort : (before.flatMap Event.bytes).length < n) :
    fillFrom got n (before ++ .failed reason :: rest) =
      ⟨got ++ before.flatMap Event.bytes, some reason, rest⟩ := by
  rw [fillFrom_append hbefore hshort]
  cases hmissing : n - (before.flatMap Event.bytes).length with
  | zero => omega
  | succ missing => rw [fillFrom]

/-- A read fails exactly if the stream breaks. -/
theorem fillFrom_failure_iff {n : Nat} {events rest : List Event} {bytes : Bytes}
    {reason : String} :
    fillFrom [] n events = ⟨bytes, some reason, rest⟩ ↔ Breaks events n bytes reason rest := by
  constructor
  · intro h
    rcases breaks_of_failure h with ⟨arrived, rfl, hbreaks⟩
    exact hbreaks
  · rintro ⟨⟨before, rfl, hbefore, rfl⟩, hshort⟩
    exact fillFrom_of_goesOn hbefore hshort

end Source

namespace Host

/-- The stream that is read under a handle: the input stream, or that of a file. -/
def source? (h : Host) (handle : Word) : Option Source :=
  match h.channel? handle with
  | some .stdin => some h.stdin
  | some (.file f) => some (fileSource h.directory f)
  | _ => none

variable {h : Host} {handle : Word} {n : Nat}

/-- One loop reads the input stream and every file. -/
theorem read_of_source {source : Source} (hsource : h.source? handle = some source) :
    (h.read handle n).1 =
      ((Source.fillFrom [] n source.events).bytes,
        (Source.fillFrom [] n source.events).failure.map .hostIo) := by
  unfold source? at hsource
  unfold read
  split at hsource
  next hchannel =>
    cases hsource
    rw [hchannel]
    rfl
  next f hchannel =>
    cases hsource
    rw [hchannel]
    rfl
  next => cases hsource

/-- Where there is no stream to read, no bytes arrive. -/
theorem read_of_no_source (hsource : h.source? handle = none) : (h.read handle n).1.1 = [] := by
  unfold source? at hsource
  unfold read
  split at hsource
  next => cases hsource
  next => cases hsource
  next hstdin hfile =>
    split
    next => rfl
    next => rfl
    next => rfl
    next hchannel => exact absurd hchannel hstdin
    next f hchannel => exact absurd hchannel (hfile f)

/-- A read fails after bytes have arrived exactly if the stream of the handle breaks, be it that of
a file or the input stream. -/
theorem read_fault_iff {bytes : Bytes} {e : Fault} (hbytes : bytes ≠ []) :
    (h.read handle n).1 = (bytes, some e) ↔
      ∃ source reason rest, h.source? handle = some source ∧ e = .hostIo reason ∧
        Source.Breaks source.events n bytes reason rest := by
  constructor
  · intro hread
    cases hsource : h.source? handle with
    | none =>
      have hnothing := read_of_no_source (n := n) hsource
      rw [hread] at hnothing
      exact absurd hnothing hbytes
    | some source =>
      rw [read_of_source hsource] at hread
      injection hread with hgot hfault
      rcases Option.map_eq_some_iff.1 hfault with ⟨reason, hfailure, rfl⟩
      refine ⟨source, reason, (Source.fillFrom [] n source.events).rest, rfl, rfl, ?_⟩
      rw [← Source.fillFrom_failure_iff, ← hgot, ← hfailure]
  · rintro ⟨source, reason, rest, hsource, rfl, hbreaks⟩
    rw [read_of_source hsource, Source.fillFrom_failure_iff.2 hbreaks]
    rfl

end Host

/-! ## Guest memory that was overwritten with what it held -/

namespace Heap

variable {h : Heap}

/-- Overwriting changes nothing if it changes no region. -/
theorem overwrite_eq_self_of_lookup {a : Word} {bytes : Bytes}
    (hlookup : ∀ number, (h.overwrite a bytes).lookup number = h.lookup number) :
    h.overwrite a bytes = h := by
  have hregions : (h.overwrite a bytes).regions = h.regions := by
    refine Array.ext (size_overwrite h a bytes) fun i hi hi' => ?_
    have hslot := hlookup (i + 1)
    simpa [lookup, hi, hi'] using hslot
  have hfree := h.free_overwrite a bytes
  have hprofile := h.profile_overwrite a bytes
  have hsupply := h.supply_overwrite a bytes
  generalize h.overwrite a bytes = h' at hregions hfree hprofile hsupply
  rcases h with ⟨regions, free, profile, supply⟩
  rcases h' with ⟨regions', free', profile', supply'⟩
  cases hregions
  cases hfree
  cases hprofile
  cases hsupply
  rfl

/-- Overwriting changes nothing exactly if the bytes were there before. -/
theorem overwrite_eq_self_iff {a : Word} {bytes : Bytes}
    (hcovers : h.covers a bytes.length = true) :
    h.overwrite a bytes = h ↔ h.slice a bytes.length = .ok bytes := by
  rcases covers_iff.1 hcovers with ⟨r, hlookup, hfits⟩
  constructor
  · intro hsame
    refine slice_ok_iff.2 ⟨r, hlookup, hfits, rfl, fun i hi => ?_⟩
    -- the region is the patched one, in which the bytes are found
    have hpatched := lookup_overwrite h a bytes (Address.region a)
    rw [hsame, if_pos rfl, hlookup, Option.map_some, Option.some.injEq] at hpatched
    have hplace := getElem?_splice_eq hfits (Address.offset a + i)
    rw [if_pos (by omega), Nat.add_sub_cancel_left] at hplace
    have hbytes : r.bytes = splice r.bytes (Address.offset a) bytes :=
      congrArg Region.bytes hpatched
    rw [← hplace, ← hbytes]
  · intro hslice
    rcases slice_ok_iff.1 hslice with ⟨r', hlookup', -, -, hplaces⟩
    cases hlookup.symm.trans hlookup'
    -- every byte that is copied is there already
    have hsplice : splice r.bytes (Address.offset a) bytes = r.bytes := by
      apply Array.ext_getElem?
      intro i
      rw [getElem?_splice_eq hfits]
      split
      next hinside =>
        rw [hplaces _ (by omega), Nat.add_sub_of_le hinside.1]
      next => rfl
    refine overwrite_eq_self_of_lookup fun number => ?_
    rw [lookup_overwrite]
    split
    next hnumber => rw [hnumber, hlookup, Option.map_some, hsplice]
    next => rfl

theorem overwrite_nil (h : Heap) (a : Word) : h.overwrite a [] = h := by
  refine overwrite_eq_self_of_lookup fun number => ?_
  rw [lookup_overwrite]
  split
  · simp [splice]
  · rfl

end Heap

namespace Machine

open Interrupt

variable {table : Interrupt.Table} {m m' : Machine} {buffer : Word} {bytes : Bytes}
  {reason : String}

/-! ## Reads that fail -/

/-- The words on the stack ask for input that goes to the buffer, and some bytes of it arrive before
the stream or the file fails. -/
def Spills (m : Machine) (buffer : Word) (bytes : Bytes) (reason : String) : Prop :=
  ∃ size count handle rest source unread,
    m.stack.items = buffer :: size :: count :: handle :: rest ∧
    count.toNat * size.toNat < UInt64.size ∧
    m.heap.covers buffer (count.toNat * size.toNat) = true ∧
    m.host.source? handle = some source ∧
    Source.Breaks source.events (count.toNat * size.toNat) bytes reason unread ∧ bytes ≠ []

/-- The buffer has room for all that was asked for, so for what has arrived. -/
theorem Spills.covers (h : m.Spills buffer bytes reason) :
    m.heap.covers buffer bytes.length = true := by
  rcases h with ⟨size, count, handle, rest, source, unread, -, -, hcovers, -, hbreaks, -⟩
  rcases Heap.covers_iff.1 hcovers with ⟨r, hlookup, hfits⟩
  have hshort := hbreaks.short
  exact Heap.covers_iff.2 ⟨r, hlookup, by omega⟩

/-- The stack and the stream tell which bytes arrive, and where. -/
theorem Spills.unique {buffer' : Word} {bytes' : Bytes} {reason' : String}
    (h : m.Spills buffer bytes reason) (h' : m.Spills buffer' bytes' reason') :
    buffer' = buffer ∧ bytes' = bytes := by
  rcases h with ⟨size, count, handle, rest, source, unread, hitems, -, -, hsource, hbreaks, -⟩
  rcases h' with ⟨size', count', handle', rest', source', unread', hitems', -, -, hsource',
    hbreaks', -⟩
  cases hitems.symm.trans hitems'
  cases hsource.symm.trans hsource'
  rw [← Source.fillFrom_failure_iff] at hbreaks hbreaks'
  cases hbreaks.symm.trans hbreaks'
  exact ⟨rfl, rfl⟩

theorem read_of_items {size count handle : Word} {rest : List Word}
    (hitems : m.stack.items = buffer :: size :: count :: handle :: rest) :
    Interrupt.read m =
      (do
        let length ← transferLength count size
        let received ← if length = 0 then pure 0 else receive handle buffer length
        replace 3 (UInt64.ofNat (received / size.toNat))
        drop 3 : Action Unit) m := by
  have hrequire : require 4 m = .ok () m := require_ok_iff.2 ⟨by simp [hitems], rfl⟩
  have hhandle : peek 3 m = .ok handle m := peek_ok_iff.2 ⟨by simp [hitems], rfl⟩
  have hsize : peek 1 m = .ok size m := peek_ok_iff.2 ⟨by simp [hitems], rfl⟩
  have hcount : peek 2 m = .ok count m := peek_ok_iff.2 ⟨by simp [hitems], rfl⟩
  have hbuffer : peek 0 m = .ok buffer m := peek_ok_iff.2 ⟨by simp [hitems], rfl⟩
  simp only [Interrupt.read, bind_of_ok hrequire, bind_of_ok hhandle, bind_of_ok hsize,
    bind_of_ok hcount]
  unfold transferLength
  split
  · exact bind_of_ok hbuffer
  · rfl

/-- What has arrived before a fault is in guest memory. -/
theorem receive_of_fault {handle : Word} {length : Nat} {e : Fault} {host : Host}
    (hcovers : m.heap.covers buffer length = true)
    (hread : m.host.read handle length = ((bytes, some e), host)) :
    receive handle buffer length m =
      .error e { m with host, heap := m.heap.overwrite buffer bytes } := by
  unfold receive
  rw [get_bind, if_pos hcovers]
  exact bind_of_ok (onHost_read hread)

/-- The service leaves what has spilled and fails with the reason of the stream. -/
theorem read_of_spills (h : m.Spills buffer bytes reason) :
    ∃ host, Interrupt.read m =
      .error (.hostIo reason) { m with host, heap := m.heap.overwrite buffer bytes } := by
  rcases h with ⟨size, count, handle, rest, source, unread, hitems, hlength, hcovers, hsource,
    hbreaks, hbytes⟩
  have hfault : (m.host.read handle (count.toNat * size.toNat)).1 =
      (bytes, some (.hostIo reason)) :=
    (Host.read_fault_iff hbytes).2 ⟨source, reason, unread, hsource, rfl, hbreaks⟩
  rcases hread : m.host.read handle (count.toNat * size.toNat) with ⟨got, host⟩
  rw [hread] at hfault
  cases hfault
  have hsome : count.toNat * size.toNat ≠ 0 := Nat.ne_zero_of_lt hbreaks.short
  refine ⟨host, ?_⟩
  rw [read_of_items hitems, bind_of_ok (transferLength_ok_iff.2 ⟨hlength, rfl, rfl⟩), if_neg hsome]
  exact bind_error_iff.2 (.inl (receive_of_fault hcovers hread))

/-- The step leaves what has spilled and fails with the reason of the stream. -/
theorem Calls.step_of_spills (hcalls : m.Calls table 12) (h : m.Spills buffer bytes reason) :
    ∃ host, step table m =
      .error (.hostIo reason) { m.advanced with host, heap := m.heap.overwrite buffer bytes } := by
  rcases hcalls.step_eq with ⟨service, hprovides, heq⟩
  cases hprovides
  -- counting the instruction changes nothing that the service looks at
  have hadvanced : m.advanced.Spills buffer bytes reason := h
  rcases read_of_spills hadvanced with ⟨host, hread⟩
  exact ⟨host, heq.trans hread⟩

/-- A read that fails leaves the guest as it was, unless some bytes have arrived. -/
theorem sameGuest_or_spills_of_read {e : Fault} (h : Interrupt.read m = .error e m') :
    SameGuest m m' ∨ ∃ buffer bytes reason, m.Spills buffer bytes reason := by
  have hfalters : Falters m 12 m' := falters_read h
  cases hfalters with
  | clean hsame => exact .inl hsame
  | @read buffer size count handle rest bytes fault host hitems hcovers hread =>
    by_cases hbytes : bytes = []
    · subst hbytes
      rw [Heap.overwrite_nil]
      exact .inl ⟨host, m.loader, m.journal, rfl⟩
    by_cases hlength : count.toNat * size.toNat < UInt64.size
    · rcases (Host.read_fault_iff hbytes).1 (congrArg Prod.fst hread) with
        ⟨source, reason, unread, hsource, -, hbreaks⟩
      exact .inr ⟨buffer, bytes, reason, size, count, handle, rest, source, unread, hitems, hlength,
        hcovers, hsource, hbreaks, hbytes⟩
    · -- a length that is no word is refused before the stream is read
      rw [read_of_items hitems, transferLength, if_neg hlength, throw_bind] at h
      rw [← (EStateM.Result.error.inj h).2]
      exact .inl (.refl m)

/-- A step that fails to read leaves the guest as it was, unless bytes have spilled. -/
theorem Calls.sameGuest_or_spills (hcalls : m.Calls table 12) {e : Fault}
    (hstep : step table m = .error e m') :
    SameGuest m.advanced m' ∨ ∃ buffer bytes reason, m.Spills buffer bytes reason := by
  rcases hcalls.step_eq with ⟨service, hprovides, heq⟩
  cases hprovides
  exact sameGuest_or_spills_of_read (heq.symm.trans hstep)

/-- The step that reads input, from the input stream or from a file, leaves everything but guest
memory as it was when it fails. If some bytes have arrived by then, they are in the buffer, and this
is all that has changed in guest memory; so guest memory is as before exactly if no bytes have
arrived other than those that the buffer held. -/
theorem failed_read_exact (hcalls : m.Calls table 12) {e : Fault}
    (hstep : step table m = .error e m') :
    SameGuest { m.advanced with heap := m'.heap } m' ∧
    (∀ buffer bytes reason, m.Spills buffer bytes reason →
      e = .hostIo reason ∧ m'.heap = m.heap.overwrite buffer bytes) ∧
    (m'.heap = m.heap ↔ ∀ buffer bytes reason, m.Spills buffer bytes reason →
      m.heap.slice buffer bytes.length = .ok bytes) := by
  have harrived : ∀ buffer bytes reason, m.Spills buffer bytes reason →
      e = .hostIo reason ∧ ∃ host,
        m' = { m.advanced with host, heap := m.heap.overwrite buffer bytes } := by
    intro buffer bytes reason hspills
    rcases hcalls.step_of_spills hspills with ⟨host, hfault⟩
    cases hfault.symm.trans hstep
    exact ⟨rfl, host, rfl⟩
  have hheap : ∀ buffer bytes reason, m.Spills buffer bytes reason →
      e = .hostIo reason ∧ m'.heap = m.heap.overwrite buffer bytes := by
    intro buffer bytes reason hspills
    rcases harrived buffer bytes reason hspills with ⟨he, host, rfl⟩
    exact ⟨he, rfl⟩
  have hheld : m'.heap = m.heap → ∀ buffer bytes reason, m.Spills buffer bytes reason →
      m.heap.slice buffer bytes.length = .ok bytes := by
    intro hsame buffer bytes reason hspills
    rw [(hheap buffer bytes reason hspills).2] at hsame
    exact (Heap.overwrite_eq_self_iff hspills.covers).1 hsame
  rcases hcalls.sameGuest_or_spills hstep with hsame | ⟨buffer, bytes, reason, hspills⟩
  · rcases hsame with ⟨host, loader, journal, rfl⟩
    exact ⟨⟨host, loader, journal, rfl⟩, hheap, hheld, fun _ => rfl⟩
  · rcases harrived buffer bytes reason hspills with ⟨-, host, rfl⟩
    refine ⟨⟨host, m.loader, m.journal, rfl⟩, hheap, hheld, fun h => ?_⟩
    exact (Heap.overwrite_eq_self_iff hspills.covers).2 (h buffer bytes reason hspills)

/-- A program opens a file and reads two bytes from it to where its memory holds an `A`. The file
yields an `A` and fails, so the memory stays as it is. -/
theorem failed_read_exact_held :
    let program : Module :=
      { instructions := #[.of .loadMemory 0, .of .loadMemory 2, .of .int 3, .of .push 2,
          .of .push 1, .of .loadMemory 4, .of .int 12]
        memory := .detached [97, 0, 114, 0, 65, 0] }
    let host : Host :=
      { directory := { files := [("a", [])] }
        openings := [.granted [.chunk [65], .failed "input failed"] []] }
    ∃ (first m m' : Machine), start program (Loader.registry []) {} host = .ok first ∧
      m = first.after standard [.step, .step, .step, .step, .step, .step] ∧ m.Calls standard 12 ∧
      step standard m = .error (.hostIo "input failed") m' ∧
      m.Spills 4294967300 [65] "input failed" ∧ m'.heap = m.heap := by
  intro program host
  let f : OpenFile :=
    { number := some 0
      readable := true
      writable := false
      reads := [.chunk [65], .failed "input failed"] }
  have hrun : ∃ (first m : Machine), start program (Loader.registry []) {} host = .ok first ∧
      m = first.after standard [.step, .step, .step, .step, .step, .step] ∧
      fetch m = .ok (.of .int 12) m ∧ m.stack.items = [4294967300, 1, 2, 4] ∧
      m.heap.slice 4294967300 1 = .ok [65] ∧ m.heap.covers 4294967300 2 = true ∧
      m.host.channel? 4 = some (.file f) := by
    dsimp only [program, host, f]
    set_option maxRecDepth 3000 in
    refine ⟨_, _, rfl, rfl, ?_, by decide +kernel, ?_, by decide +kernel, by decide +kernel⟩
    · with_unfolding_all exact rfl
    · with_unfolding_all exact rfl
  rcases hrun with ⟨first, m, hstart, hm, hfetch, hitems, hslice, hcovers, hchannel⟩
  have hspills : m.Spills 4294967300 [65] "input failed" := by
    refine ⟨1, 2, 4, [], Host.fileSource m.host.directory f, [Host.unread m.host.directory f],
      hitems, by decide, hcovers, ?_, ?_, List.cons_ne_nil _ _⟩
    · unfold Host.source?
      rw [hchannel]
    · exact Source.fillFrom_failure_iff.1 rfl
  have hcalls : m.Calls standard 12 := calls_standard hfetch rfl
  rcases hcalls.step_of_spills hspills with ⟨host', hstep⟩
  refine ⟨first, m, _, hstart, hm, hcalls, hstep, hspills, ?_⟩
  refine (failed_read_exact hcalls hstep).2.2.2 fun buffer bytes reason h => ?_
  rcases hspills.unique h with ⟨rfl, rfl⟩
  exact hslice

/-- A program reads two bytes into an array of zeros. The stream yields one byte and fails, and the
byte stays in the array. -/
theorem failed_read_spoils :
    let program : Module :=
      { instructions := #[.of .push 2, .of .pushArray 0, .of .push 2, .of .push 2, .of .push 1,
          .of .dup 3, .of .int 12] }
    let host : Host := { stdin := ⟨[.chunk [65], .failed "input failed"]⟩ }
    ∃ (first m m' : Machine), start program (Loader.registry []) {} host = .ok first ∧
      m = first.after standard [.step, .step, .step, .step, .step, .step] ∧ m.Calls standard 12 ∧
      step standard m = .error (.hostIo "input failed") m' ∧
      m.heap.lookup 1 = some ⟨.guest, #[0, 0]⟩ ∧ m'.heap.lookup 1 = some ⟨.guest, #[65, 0]⟩ := by
  intro program host
  have hrun : ∃ (first m : Machine), start program (Loader.registry []) {} host = .ok first ∧
      m = first.after standard [.step, .step, .step, .step, .step, .step] ∧
      fetch m = .ok (.of .int 12) m ∧ m.stack.items = [4294967296, 1, 2, 2, 4294967296] ∧
      m.heap.lookup 1 = some ⟨.guest, #[0, 0]⟩ ∧ m.heap.covers 4294967296 2 = true ∧
      m.host.channel? 2 = some .stdin ∧
      m.host.stdin.events = [.chunk [65], .failed "input failed"] := by
    dsimp only [program, host]
    set_option maxRecDepth 3000 in
    exact ⟨_, _, rfl, rfl, rfl, by decide +kernel, by decide +kernel, by decide +kernel, rfl, rfl⟩
  rcases hrun with ⟨first, m, hstart, hm, hfetch, hitems, hlookup, hcovers, hchannel, hevents⟩
  have hspills : m.Spills 4294967296 [65] "input failed" := by
    refine ⟨1, 2, 2, _, m.host.stdin, [], hitems, by decide, hcovers, ?_, ?_,
      List.cons_ne_nil _ _⟩
    · unfold Host.source?
      rw [hchannel]
    · rw [hevents]
      exact Source.fillFrom_failure_iff.1 rfl
  have hcalls : m.Calls standard 12 := calls_standard hfetch rfl
  rcases hcalls.step_of_spills hspills with ⟨host', hstep⟩
  refine ⟨first, m, _, hstart, hm, hcalls, hstep, hlookup, ?_⟩
  rw [Heap.lookup_overwrite, hlookup]
  rfl

end Machine
end StackMachine
