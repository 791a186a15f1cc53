import StackMachine.Machine.Access
import StackMachine.Proofs.Heap
import StackMachine.Proofs.Sequence
import StackMachine.Proofs.Stack

/-!
# Action — what actions do to a machine

Every action of which instructions and services are composed has a lemma that says when it succeeds,
with which value and in which machine.

How actions fail is told apart from that:

* `Machine.Reads` — the action looks at the machine and leaves it alone;
* `Machine.Clean` — a fault of the action leaves the guest as it was, see `Machine.SameGuest`.
-/

namespace StackMachine
namespace Machine

variable {α β : Type} {m m' : Machine}

/-- An attempt succeeds as its result does, and changes nothing. -/
@[simp]
theorem attempt_ok_iff {r : Except Fault α} {a : α} :
    attempt r m = .ok a m' ↔ r = .ok a ∧ m' = m := by
  cases r with
  | ok b => simp [attempt, eq_comm]
  | error e => simp [attempt, throw_apply]

/-- An attempt fails as its result does, and changes nothing. -/
theorem attempt_error_iff {r : Except Fault α} {e : Fault} :
    attempt r m = .error e m' ↔ r = .error e ∧ m' = m := by
  cases r with
  | ok a =>
    refine ⟨fun h => ?_, fun h => ?_⟩
    · cases h
    · cases h.1
  | error e' => simp [attempt, throw_apply, eq_comm]

/-! ## Evaluation stack -/

/-- Requiring words only looks whether there are so many. -/
theorem require_ok_iff {n : Nat} {u : Unit} :
    require n m = .ok u m' ↔ n ≤ m.stack.items.length ∧ m' = m := by
  simp [require, Stack.require_ok_iff]

theorem reserve_ok_iff {n : Nat} {u : Unit} :
    reserve n m = .ok u m' ↔ n ≤ m.stack.capacity - m.stack.items.length ∧ m' = m := by
  simp [reserve, Stack.reserve_ok_iff]

/-- Peeking finds the word at the depth and leaves it there. -/
theorem peek_ok_iff {depth : Nat} {w : Word} :
    peek depth m = .ok w m' ↔ m.stack.items[depth]? = some w ∧ m' = m := by
  simp [peek, Stack.peek_ok_iff]

/-- A push needs room for one word, and puts it on top. -/
theorem push_ok_iff {w : Word} {u : Unit} :
    push w m = .ok u m' ↔ m.stack.items.length < m.stack.capacity ∧
      m' = { m with stack := m.stack.withItems (w :: m.stack.items) } := by
  simp [push, bind_ok_iff, Stack.push_ok_iff, and_assoc]

/-- Replacing needs a word at the depth, and exchanges that one only. -/
theorem replace_ok_iff {depth : Nat} {w : Word} {u : Unit} :
    replace depth w m = .ok u m' ↔ depth < m.stack.items.length ∧
      m' = { m with stack := m.stack.withItems (m.stack.items.set depth w) } := by
  simp [replace, bind_ok_iff, Stack.set_ok_iff, and_assoc]

/-- Dropping needs so many words, and takes off those on top. -/
theorem drop_ok_iff {n : Nat} {u : Unit} :
    drop n m = .ok u m' ↔ n ≤ m.stack.items.length ∧
      m' = { m with stack := m.stack.withItems (m.stack.items.drop n) } := by
  simp [drop, bind_ok_iff, Stack.drop_ok_iff, and_assoc]

/-! ## Pool stack -/

theorem reservePool_ok_iff {u : Unit} :
    reservePool m = .ok u m' ↔ m.pools.items.length < m.pools.capacity ∧ m' = m := by
  have hroom : 1 ≤ m.pools.capacity - m.pools.items.length ↔
      m.pools.items.length < m.pools.capacity := by omega
  simp [reservePool, Stack.reserve_ok_iff, hroom]

theorem currentPool_ok_iff {a : Word} :
    currentPool m = .ok a m' ↔ m.pools.items[0]? = some a ∧ m' = m := by
  simp [currentPool, Stack.top, Stack.peek_ok_iff]

/-- A pool is put on top of the pool stack if there is room for it. -/
theorem pushPool_ok_iff {a : Word} {u : Unit} :
    pushPool a m = .ok u m' ↔ m.pools.items.length < m.pools.capacity ∧
      m' = { m with pools := m.pools.withItems (a :: m.pools.items) } := by
  simp [pushPool, bind_ok_iff, Stack.push_ok_iff, and_assoc]

/-- The pool on top is taken off, if there is one. -/
theorem popPool_ok_iff {u : Unit} :
    popPool m = .ok u m' ↔ ∃ a rest, m.pools.items = a :: rest ∧
      m' = { m with pools := m.pools.withItems rest } := by
  simp only [popPool, get_bind, bind_ok_iff, attempt_ok_iff, modify_ok_iff]
  constructor
  · rintro ⟨⟨a, pools⟩, _, ⟨hpop, rfl⟩, rfl⟩
    rcases Stack.pop_ok_iff.1 hpop with ⟨rest, hitems, rfl⟩
    exact ⟨a, rest, hitems, rfl⟩
  · rintro ⟨a, rest, hitems, rfl⟩
    exact ⟨(a, m.pools.withItems rest), m, ⟨Stack.pop_ok_iff.2 ⟨rest, hitems, rfl⟩, rfl⟩, rfl⟩

/-! ## Memory -/

/-- Advancing succeeds unless it leaves the offsets of the region. -/
theorem advance_ok_iff {a distance b : Word} :
    advance a distance m = .ok b m' ↔ Address.advance? a distance = some b ∧ m' = m := by
  unfold advance
  cases Address.advance? a distance with
  | none => simp [throw_apply]
  | some c => simp [eq_comm]

/-- The address is found from the pool on top. -/
theorem poolAddress_ok_iff {offset b : Word} :
    poolAddress offset m = .ok b m' ↔
      (∃ a, m.pools.items[0]? = some a ∧ Address.advance? a offset = some b) ∧ m' = m := by
  simp only [poolAddress, bind_ok_iff, currentPool_ok_iff, advance_ok_iff]
  constructor
  · rintro ⟨a, _, ⟨hpool, rfl⟩, haddress, rfl⟩
    exact ⟨⟨a, hpool, haddress⟩, rfl⟩
  · rintro ⟨⟨a, hpool, haddress⟩, rfl⟩
    exact ⟨a, _, ⟨hpool, rfl⟩, haddress, rfl⟩

theorem readMemory_ok_iff {a width w : Word} :
    readMemory a width m = .ok w m' ↔ m.heap.read a width = .ok w ∧ m' = m := by
  simp [readMemory]

/-- A write succeeds where the bytes can be written, and changes guest memory only. -/
theorem writeMemory_ok_iff {a value width : Word} {u : Unit} :
    writeMemory a value width m = .ok u m' ↔ m.heap.writable a width = true ∧
      m' = { m with heap := m.heap.store a value width } := by
  unfold writeMemory
  rw [get_bind]
  split
  next h => simp [h]
  next h => simp [h, throw_apply]

/-- Allocating always succeeds; that there is no memory is told by the null address. -/
theorem allocate_ok_iff {size a : Word} :
    allocate size m = .ok a m' ↔ a = (m.heap.allocate size).1 ∧
      m' = { m with heap := (m.heap.allocate size).2 } := by
  show EStateM.Result.ok (m.heap.allocate size).1
    { m with heap := (m.heap.allocate size).2 } = _ ↔ _
  rw [EStateM.Result.ok.injEq, eq_comm, @eq_comm Machine]

/-- The action gives back what guest memory gives back, and changes nothing else. -/
theorem release_ok_iff {a : Word} {u : Unit} :
    release a m = .ok u m' ↔ ∃ heap, m.heap.release a = .ok heap ∧ m' = { m with heap } := by
  unfold release Heap.release
  split
  next h => simp
  next h =>
    rw [get_bind]
    split
    next h => simp
    next h => simp [Heap.unmatched_ok_iff, and_assoc]

/-- Giving back what is no region of the guest changes nothing, and is an error if it is checked. -/
theorem release_of_unmatched {a : Word} (hnull : a ≠ 0) (hother : m.heap.starts a .guest = false) :
    m.heap.profile = .checked ∧ release a m = .error .illegalAccess m ∨
      m.heap.profile = .lenient ∧ release a m = .ok () m := by
  have hrelease : release a m = attempt (m.heap.unmatched ()) m := by
    rw [release, if_neg hnull, get_bind, hother]
    rfl
  rw [hrelease]
  unfold Heap.unmatched
  cases m.heap.profile with
  | checked => exact .inl ⟨rfl, rfl⟩
  | lenient => exact .inr ⟨rfl, rfl⟩

theorem slice_ok_iff {a : Word} {length : Nat} {bytes : Bytes} :
    slice a length m = .ok bytes m' ↔ m.heap.slice a length = .ok bytes ∧ m' = m := by
  simp [slice]

theorem cString_ok_iff {a : Word} {bytes : Bytes} :
    cString a m = .ok bytes m' ↔ m.heap.cString a = .ok bytes ∧ m' = m := by
  simp [cString]

/-! ## Host -/

/-- What is done on the host leaves the rest of the machine alone. -/
theorem onHost_ok_iff {f : EStateM Fault Host α} {a : α} :
    onHost f m = .ok a m' ↔ ∃ host, f m.host = .ok a host ∧ m' = { m with host } := by
  unfold onHost
  cases f m.host with
  | ok b host => simp [eq_comm, and_assoc]
  | error e host => simp

/-! ## Modules -/

theorem activeModule_ok_iff {module : Module} :
    activeModule m = .ok module m' ↔ m.module m.active = .ok module ∧ m' = m := by
  simp [activeModule]

/-- A branch goes to an instruction of the active module. -/
theorem branchTarget_ok_iff {target next : Word} :
    branchTarget target m = .ok next m' ↔
      (∃ module, m.module m.active = .ok module ∧ module.contains target = true) ∧
        next = target ∧ m' = m := by
  simp only [branchTarget, bind_ok_iff, activeModule_ok_iff]
  constructor
  · rintro ⟨module, _, ⟨hmodule, rfl⟩, h⟩
    split at h
    next hcontains =>
      rcases pure_ok_iff.1 h with ⟨rfl, rfl⟩
      exact ⟨⟨module, hmodule, hcontains⟩, rfl, rfl⟩
    next => simp [throw_apply] at h
  · rintro ⟨⟨module, hmodule, hcontains⟩, rfl, rfl⟩
    refine ⟨module, _, ⟨hmodule, rfl⟩, ?_⟩
    simp [hcontains]

/-- A frame goes to an instruction of a loaded module. -/
theorem frameTarget_ok_iff {index address : Word} {u : Unit} :
    frameTarget index address m = .ok u m' ↔
      (∃ module, m.module index = .ok module ∧ module.contains address = true) ∧ m' = m := by
  simp only [frameTarget, get_bind, bind_ok_iff, attempt_ok_iff]
  constructor
  · rintro ⟨module, _, ⟨hmodule, rfl⟩, h⟩
    split at h
    next hcontains => exact ⟨⟨module, hmodule, hcontains⟩, (pure_ok_iff.1 h).2⟩
    next => simp [throw_apply] at h
  · rintro ⟨⟨module, hmodule, hcontains⟩, rfl⟩
    refine ⟨module, _, ⟨hmodule, rfl⟩, ?_⟩
    simp [hcontains]

theorem jump_ok_iff {target : Word} {u : Unit} :
    jump target m = .ok u m' ↔ m' = { m with pc := target } := modify_ok_iff

theorem enter_ok_iff {index address : Word} {u : Unit} :
    enter index address m = .ok u m' ↔ m' = { m with active := index, pc := address } :=
  modify_ok_iff

/-! ## Actions that change nothing -/

/-- The action may fail, but it never changes the machine. -/
def Reads (x : Action α) : Prop := ∀ m, (∃ a, x m = .ok a m) ∨ ∃ e, x m = .error e m

/-- An action that only reads leaves the machine as it was when it succeeds. -/
theorem Reads.eq_of_ok {x : Action α} (hx : Reads x) {a : α} (h : x m = .ok a m') : m' = m := by
  rcases hx m with ⟨b, hb⟩ | ⟨e, he⟩
  · rw [hb] at h
    cases h
    rfl
  · rw [he] at h
    cases h

/-- An action that only reads leaves the machine as it was when it fails. -/
theorem Reads.eq_of_error {x : Action α} (hx : Reads x) {e : Fault} (h : x m = .error e m') :
    m' = m := by
  rcases hx m with ⟨b, hb⟩ | ⟨e', he⟩
  · rw [hb] at h
    cases h
  · rw [he] at h
    cases h
    rfl

theorem reads_attempt (r : Except Fault α) : Reads (attempt r) := by
  intro m
  cases r with
  | ok a => exact .inl ⟨a, rfl⟩
  | error e => exact .inr ⟨e, rfl⟩

theorem reads_pure (a : α) : Reads (pure a : Action α) := fun _ => .inl ⟨a, rfl⟩

theorem reads_throw (e : Fault) : Reads (throw e : Action α) := fun _ => .inr ⟨e, rfl⟩

theorem reads_get : Reads (get : Action Machine) := fun m => .inl ⟨m, rfl⟩

/-- Actions that only read do so one after the other. -/
theorem Reads.bind {x : Action α} {f : α → Action β} (hx : Reads x) (hf : ∀ a, Reads (f a)) :
    Reads (x >>= f) := by
  intro m
  rcases hx m with ⟨a, ha⟩ | ⟨e, he⟩
  · rcases hf a m with ⟨b, hb⟩ | ⟨e, he⟩
    · exact .inl ⟨b, bind_ok_iff.2 ⟨a, m, ha, hb⟩⟩
    · exact .inr ⟨e, bind_error_iff.2 (.inr ⟨a, m, ha, he⟩)⟩
  · exact .inr ⟨e, bind_error_iff.2 (.inl he)⟩

theorem Reads.ite {c : Prop} [Decidable c] {x y : Action α} (hx : Reads x) (hy : Reads y) :
    Reads (if c then x else y) := by
  split
  · exact hx
  · exact hy

theorem reads_require (n : Nat) : Reads (require n) := reads_get.bind fun _ => reads_attempt _

theorem reads_reserve (n : Nat) : Reads (reserve n) := reads_get.bind fun _ => reads_attempt _

theorem reads_peek (depth : Nat) : Reads (peek depth) := reads_get.bind fun _ => reads_attempt _

theorem reads_reservePool : Reads reservePool := reads_get.bind fun _ => reads_attempt _

theorem reads_currentPool : Reads currentPool := reads_get.bind fun _ => reads_attempt _

theorem reads_advance (a distance : Word) : Reads (advance a distance) := by
  unfold advance
  cases Address.advance? a distance with
  | none => exact reads_throw _
  | some b => exact reads_pure b

theorem reads_poolAddress (offset : Word) : Reads (poolAddress offset) :=
  reads_currentPool.bind fun _ => reads_advance _ _

theorem reads_readMemory (a width : Word) : Reads (readMemory a width) :=
  reads_get.bind fun _ => reads_attempt _

theorem reads_slice (a : Word) (length : Nat) : Reads (slice a length) :=
  reads_get.bind fun _ => reads_attempt _

theorem reads_cString (a : Word) : Reads (cString a) := reads_get.bind fun _ => reads_attempt _

theorem reads_activeModule : Reads activeModule := reads_get.bind fun _ => reads_attempt _

theorem reads_branchTarget (target : Word) : Reads (branchTarget target) :=
  reads_activeModule.bind fun _ => (reads_pure _).ite (reads_throw _)

theorem reads_frameTarget (index address : Word) : Reads (frameTarget index address) :=
  reads_get.bind fun _ => (reads_attempt _).bind fun _ => (reads_pure _).ite (reads_throw _)

/-! ## Faults that leave the guest alone -/

/-- The machines differ at most outside the guest: in the host, the loader and the journal. -/
def SameGuest (m m' : Machine) : Prop :=
  ∃ host loader journal, m' = { m with host, loader, journal }

theorem SameGuest.refl (m : Machine) : SameGuest m m := ⟨m.host, m.loader, m.journal, rfl⟩

/-- A fault of the action in `m` leaves the guest as it was. -/
def Clean (x : Action α) (m : Machine) : Prop := ∀ e m', x m = .error e m' → SameGuest m m'

theorem Clean.of_ok {x : Action α} (h : ∃ a m', x m = .ok a m') : Clean x m := by
  intro e m' he
  rcases h with ⟨a, m₁, ha⟩
  rw [ha] at he
  cases he

theorem Reads.clean {x : Action α} (hx : Reads x) : Clean x m := by
  intro e m' he
  rw [hx.eq_of_error he]
  exact .refl m

/-- What is read before is known where the rest of a sequence has to be clean. -/
theorem Reads.bind_clean {x : Action α} {f : α → Action β} (hx : Reads x)
    (hf : ∀ a, x m = .ok a m → Clean (f a) m) : Clean (x >>= f) m := by
  intro e m' he
  rcases bind_error_iff.1 he with h | ⟨a, m₁, ha, h⟩
  · exact hx.clean e m' h
  · rcases hx.eq_of_ok ha with rfl
    exact hf a ha e m' h

/-- A fault of a sequence that starts with reading comes from the reading or from the rest. -/
theorem Reads.bind_error {x : Action α} {f : α → Action β} (hx : Reads x) {e : Fault}
    (h : (x >>= f) m = .error e m') : m' = m ∨ ∃ a, x m = .ok a m ∧ f a m = .error e m' := by
  rcases bind_error_iff.1 h with hfault | ⟨a, m₁, ha, hrest⟩
  · exact .inl (hx.eq_of_error hfault)
  · rcases hx.eq_of_ok ha with rfl
    exact .inr ⟨a, ha, hrest⟩

/-- After an action that has changed the machine, the rest of a sequence must not fail. -/
theorem Clean.bind {x : Action α} {f : α → Action β} (hx : Clean x m)
    (hf : ∀ a m₁, x m = .ok a m₁ → ∃ b m', f a m₁ = .ok b m') : Clean (x >>= f) m := by
  intro e m' he
  rcases bind_error_iff.1 he with h | ⟨a, m₁, ha, h⟩
  · exact hx e m' h
  · rcases hf a m₁ ha with ⟨b, m₂, hb⟩
    rw [hb] at h
    cases h

theorem clean_modify (f : Machine → Machine) : Clean (modify f) m :=
  .of_ok ⟨⟨⟩, f m, rfl⟩

theorem clean_push (w : Word) : Clean (push w) m := by
  refine Reads.bind_clean reads_get fun _ _ => Reads.bind_clean (reads_attempt _) fun _ _ => ?_
  exact clean_modify _

theorem clean_replace (depth : Nat) (w : Word) : Clean (replace depth w) m := by
  refine Reads.bind_clean reads_get fun _ _ => Reads.bind_clean (reads_attempt _) fun _ _ => ?_
  exact clean_modify _

theorem clean_drop (n : Nat) : Clean (drop n) m := by
  refine Reads.bind_clean reads_get fun _ _ => Reads.bind_clean (reads_attempt _) fun _ _ => ?_
  exact clean_modify _

/-- A write checks the address before it changes a byte. -/
theorem clean_writeMemory (a value width : Word) : Clean (writeMemory a value width) m := by
  refine Reads.bind_clean reads_get fun _ _ => ?_
  split
  · exact clean_modify _
  · exact (reads_throw _).clean

/-- An address is checked before it is given back. -/
theorem clean_release (a : Word) : Clean (release a) m := by
  unfold release
  split
  · exact (reads_pure _).clean
  · refine Reads.bind_clean reads_get fun _ _ => ?_
    split
    · exact clean_modify _
    · exact (reads_get.bind fun _ => reads_attempt _).clean

/-- A fault of the host leaves the guest as it was. -/
theorem clean_onHost (f : EStateM Fault Host α) : Clean (onHost f) m := by
  intro e m' he
  unfold onHost at he
  cases hf : f m.host with
  | ok a host =>
    rw [hf] at he
    cases he
  | error e host =>
    rw [hf] at he
    cases he
    exact ⟨host, m.loader, m.journal, rfl⟩

theorem exists_drop_ok {n : Nat} (h : n ≤ m.stack.items.length) :
    ∃ u m', drop n m = .ok u m' :=
  ⟨(), _, drop_ok_iff.2 ⟨h, rfl⟩⟩

/-- Once enough words are known to be there, replacing one and dropping some cannot fail. -/
theorem exists_replace_drop_ok {depth n : Nat} (w : Word) (hdepth : depth < m.stack.items.length)
    (hn : n ≤ m.stack.items.length) : ∃ u m', (do replace depth w; drop n) m = .ok u m' := by
  refine ⟨(), _, bind_ok_iff.2 ⟨(), _, replace_ok_iff.2 ⟨hdepth, rfl⟩, drop_ok_iff.2 ⟨?_, rfl⟩⟩⟩
  simpa using hn

/-- Replacing and dropping is clean where the drop cannot fail after the change. -/
theorem clean_replace_drop (depth : Nat) (w : Word) {n : Nat} (h : n ≤ m.stack.items.length) :
    Clean (do replace depth w; drop n) m := by
  refine (clean_replace depth w).bind fun _ m₁ hreplace => ?_
  rcases replace_ok_iff.1 hreplace with ⟨-, rfl⟩
  exact exists_drop_ok (by simpa using h)

/-- Writing and dropping is clean where the drop cannot fail after the change. -/
theorem clean_write_drop (a value width : Word) {n : Nat} (h : n ≤ m.stack.items.length) :
    Clean (do writeMemory a value width; drop n) m := by
  refine (clean_writeMemory a value width).bind fun _ m₁ hwrite => ?_
  rcases writeMemory_ok_iff.1 hwrite with ⟨-, rfl⟩
  exact exists_drop_ok h

/-- Allocating is clean where there is a word to put the address in place of. -/
theorem clean_allocate_replace (size : Word) (h : 0 < m.stack.items.length) :
    Clean (do replace 0 (← allocate size)) m := by
  have hallocate : Clean (allocate size) m := .of_ok ⟨_, _, allocate_ok_iff.2 ⟨rfl, rfl⟩⟩
  refine hallocate.bind fun a m₁ hok => ?_
  rcases allocate_ok_iff.1 hok with ⟨-, rfl⟩
  exact ⟨(), _, replace_ok_iff.2 ⟨h, rfl⟩⟩

end Machine
end StackMachine
