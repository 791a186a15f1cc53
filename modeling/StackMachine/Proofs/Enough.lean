import StackMachine.Proofs.Locality
import StackMachine.Proofs.Run

/-!
# Enough — actions that do not find the stack too short

Of all actions of which operations and services are composed, only those on the evaluation stack can
find it too short, and they do not if enough words are there.

* `Machine.Roles` — both stacks raise the faults that belong to them. A stack knows its role only
  from a field, so this has to be kept, and is by every call;
* `Machine.Enough` — with that many words on the stack, an action does not find it too short;
* `Machine.Retains` — it also leaves as many there, so that the next action has enough again.
-/

namespace StackMachine

/-! ## Other faults -/

/-- A stack that is full is never too short. -/
theorem Stack.Role.overflow_ne (role : Role) : role.overflow ≠ .stackUnderflow := by
  cases role with
  | evaluation => decide
  | pool => decide

/-- A stack lacks room only by being full. -/
theorem Stack.eq_of_reserve_error {s : Stack} {n : Nat} {e : Fault}
    (h : s.reserve n = .error e) : e = s.role.overflow := by
  unfold reserve at h
  split at h
  · cases h
    rfl
  · cases h

theorem Stack.eq_of_push_error {s : Stack} {w : Word} {e : Fault} (h : s.push w = .error e) :
    e = s.role.overflow := by
  unfold push at h
  split at h
  · cases h
  · next hreserve =>
    cases h
    exact eq_of_reserve_error hreserve

/-- A pop fails only on an empty stack. -/
theorem Stack.eq_of_pop_error {s : Stack} {e : Fault} (h : s.pop = .error e) :
    e = s.role.underflow := by
  unfold pop at h
  split at h
  · cases h
    rfl
  · cases h

namespace Heap

variable {h : Heap} {a : Word} {e : Fault}

/-- Bytes that cannot be had are an illegal access. -/
theorem eq_of_slice_error {length : Nat} (herror : h.slice a length = .error e) :
    e = .illegalAccess := by
  unfold slice at herror
  split at herror
  · dsimp only at herror
    split at herror
    · cases herror
    · cases herror
      rfl
  · cases herror
    rfl

theorem eq_of_read_error {width : Word} (herror : h.read a width = .error e) :
    e = .illegalAccess := by
  unfold read at herror
  split at herror
  · cases herror
    rfl
  · split at herror
    next => cases herror
    next hslice =>
      cases herror
      exact eq_of_slice_error hslice

theorem eq_of_cString_error (herror : h.cString a = .error e) : e = .illegalAccess := by
  unfold cString at herror
  split at herror
  · dsimp only at herror
    split at herror
    · cases herror
    · cases herror
      rfl
  · cases herror
    rfl

/-- To give back what is no region is an illegal access, if it is an error. -/
theorem eq_of_unmatched_error {α : Type} {answer : α} (herror : h.unmatched answer = .error e) :
    e = .illegalAccess := by
  unfold unmatched at herror
  split at herror
  · cases herror
    rfl
  · cases herror

/-- Memory that cannot be unmapped is an illegal access. -/
theorem eq_of_unmap_error (herror : h.unmap a = .error e) : e = .illegalAccess := by
  unfold unmap at herror
  split at herror
  · split at herror
    · cases herror
    · exact eq_of_unmatched_error herror
  · exact eq_of_unmatched_error herror

end Heap

theorem Segment.eq_of_unmapFrom_error {s : Segment} {heap : Heap} {e : Fault}
    (h : s.unmapFrom heap = .error e) : e = .illegalAccess := by
  cases s with
  | detached bytes => cases h
  | mapped base length =>
    rw [unmapFrom] at h
    split at h
    · cases h
    · cases hunmap : heap.unmap base with
      | ok result =>
        rw [hunmap] at h
        cases h
      | error fault =>
        rw [hunmap] at h
        cases h
        exact Heap.eq_of_unmap_error hunmap

namespace Host

variable {h h' : Host} {handle : Word} {e : Fault}

/-- A stream that cannot be written is a fault of the host. -/
theorem eq_of_writeSink_error {s s' : Sink} {data : Bytes}
    (herror : writeSink s data = .error e s') : ∃ reason, e = .hostIo reason := by
  unfold writeSink at herror
  split at herror
  · cases herror
    exact ⟨_, rfl⟩
  · split at herror
    · cases herror
      exact ⟨_, rfl⟩
    · cases herror

/-- Whatever goes wrong outside of the machine, the fault is one of the host. -/
theorem eq_of_write_error {data : Bytes} (herror : write handle data h = .error e h') :
    ∃ reason, e = .hostIo reason := by
  unfold write at herror
  split at herror
  · cases herror
    exact ⟨_, rfl⟩
  · cases herror
    exact ⟨_, rfl⟩
  · split at herror
    next => cases herror
    next hsink =>
      cases herror
      exact eq_of_writeSink_error hsink
  · split at herror
    next => cases herror
    next hsink =>
      cases herror
      exact eq_of_writeSink_error hsink
  · split at herror
    · cases herror
    · cases herror
      exact ⟨_, rfl⟩

/-- A read that ends in a fault ends in one of the host. -/
theorem eq_of_read_fault {n : Nat} {bytes : Bytes}
    (hread : h.read handle n = ((bytes, some e), h')) : ∃ reason, e = .hostIo reason := by
  unfold read at hread
  split at hread
  · cases hread
    exact ⟨_, rfl⟩
  · cases hread
    exact ⟨_, rfl⟩
  · cases hread
    exact ⟨_, rfl⟩
  · dsimp only at hread
    rw [Prod.mk.injEq, Prod.mk.injEq] at hread
    rcases Option.map_eq_some_iff.1 hread.1.2 with ⟨reason, -, rfl⟩
    exact ⟨reason, rfl⟩
  · dsimp only at hread
    rw [Prod.mk.injEq, Prod.mk.injEq] at hread
    rcases Option.map_eq_some_iff.1 hread.1.2 with ⟨reason, -, rfl⟩
    exact ⟨reason, rfl⟩

/-- A handle that cannot be closed is a fault of the host. -/
theorem eq_of_close_error (herror : close handle h = .error e h') :
    ∃ reason, e = .hostIo reason := by
  unfold close at herror
  split at herror
  · cases herror
    exact ⟨_, rfl⟩
  · split at herror
    · cases herror
    · cases herror
      exact ⟨_, rfl⟩
  · split at herror
    · cases herror
    · cases herror
      exact ⟨_, rfl⟩
  · cases herror
  · cases herror

end Host

namespace Machine

open Interrupt

variable {α β : Type} {table : Interrupt.Table} {op : Opcode} {operand : Word} {n : Nat}
  {m m' : Machine} {e : Fault}

/-! ## Roles -/

/-- Both stacks raise the faults that belong to them. -/
structure Roles (m : Machine) : Prop where
  stack : m.stack.role = .evaluation
  pools : m.pools.role = .pool

theorem Roles.branches {onZero : Bool} {target : Word} (hm : m.Roles)
    (h : Branches onZero target m m') : m'.Roles := by
  cases h with
  | taken => exact ⟨hm.stack, hm.pools⟩
  | passed => exact ⟨hm.stack, hm.pools⟩

/-- No operation changes which stack is which. -/
theorem Roles.performs (hm : m.Roles) (h : Performs operand m op m') : m'.Roles := by
  cases h with
  | jmpZero hbranch => exact hm.branches hbranch
  | jmpNotZero hbranch => exact hm.branches hbranch
  | _ => exact ⟨hm.stack, hm.pools⟩

theorem Roles.links {path : String} {index : Word} (hm : m.Roles) (h : Links path m index m') :
    m'.Roles := by
  cases h
  exact ⟨hm.stack, hm.pools⟩

theorem Roles.unlinks {index : Word} (hm : m.Roles) (h : Unlinks index m m') : m'.Roles := by
  cases h
  exact ⟨hm.stack, hm.pools⟩

theorem Roles.tears {index : Word} (hm : m.Roles) (h : Tears index m m') : m'.Roles := by
  cases h
  exact ⟨hm.stack, hm.pools⟩

theorem Roles.sameGuest (hm : m.Roles) (h : SameGuest m m') : m'.Roles := by
  rcases h with ⟨host, loader, journal, rfl⟩
  exact ⟨hm.stack, hm.pools⟩

theorem Roles.serves {code : Nat} (hm : m.Roles) (h : Serves m code m') : m'.Roles := by
  cases h with
  | link hitems htext hlinks => exact ⟨hm.stack, (hm.links hlinks).pools⟩
  | unlink hitems hunlinks => exact ⟨hm.stack, (hm.unlinks hunlinks).pools⟩
  | _ => exact ⟨hm.stack, hm.pools⟩

theorem Roles.falters {code : Nat} (hm : m.Roles) (h : Falters m code m') : m'.Roles := by
  cases h with
  | clean hsame => exact hm.sameGuest hsame
  | unlink hitems htears => exact hm.tears htears
  | read => exact ⟨hm.stack, hm.pools⟩

/-- No instruction changes which stack is which. -/
theorem Roles.exec (htable : table.IsStandard) (hm : m.Roles) (i : Instruction) :
    (left (exec table i) m).Roles := by
  rcases exec_cases table i m with ⟨e, he⟩ | ⟨op, hop, -, hexec⟩ | ⟨service, -, hget, hexec⟩
  · rw [left_of_error he]
    exact hm
  · rw [left_congr hexec]
    rcases left_cases (perform table op i.operand) m with ⟨_, hok⟩ | ⟨e, he⟩
    · exact hm.performs (performs_of_ok hop hok)
    · exact hm.sameGuest (perform_clean hop e _ he)
  · rw [left_congr hexec]
    rcases htable hget with ⟨code, hservice⟩
    rcases left_cases service m with ⟨_, hok⟩ | ⟨e, he⟩
    · exact hm.serves (serves_of_ok hservice hok)
    · exact hm.falters (falters_of_error hservice he)

/-- No call changes which stack is which. -/
theorem Roles.call (htable : table.IsStandard) (hm : m.Roles) (call : Call) :
    (call.apply table m).Roles := by
  cases call with
  | step =>
    rw [Call.apply]
    rcases step_cases table m with ⟨-, e, he⟩ | ⟨-, i, -, hexec⟩
    · rw [left_of_error he]
      exact hm
    · have hadvanced : m.advanced.Roles := ⟨hm.stack, hm.pools⟩
      rw [left_congr hexec]
      exact hadvanced.exec htable i
  | link path =>
    rcases left_cases (link path) m with ⟨index, hok⟩ | ⟨e, he⟩
    · exact hm.links (links_of_ok hok)
    · exact hm.sameGuest (clean_link path e _ he)
  | unlink index =>
    rcases left_cases (unlink index) m with ⟨_, hok⟩ | ⟨e, he⟩
    · exact hm.unlinks (unlinks_of_ok hok)
    · rcases unlink_error he with heq | htears
      · rw [Call.apply, heq]
        exact hm
      · exact hm.tears htears

/-- The stacks of a machine keep the roles that they are given at the start. -/
theorem roles_after {module : Module} {loader : Loader} {capacities : Capacities} {host : Host}
    (htable : table.IsStandard) (h : start module loader capacities host = .ok m)
    (calls : List Call) : (m.after table calls).Roles := by
  rcases start_ok h with ⟨-, rfl⟩
  exact after_induction (fun _ call hm => hm.call htable call) ⟨rfl, rfl⟩ calls

/-! ## Enough words -/

/-- With `n` words on the evaluation stack, the action does not find it too short. -/
def Enough (n : Nat) (x : Action α) : Prop :=
  ∀ ⦃m m' : Machine⦄ ⦃e : Fault⦄, m.Roles → n ≤ m.stack.items.length → x m = .error e m' →
    e ≠ .stackUnderflow

/-- With `n` words on the evaluation stack, the action does not find it too short, and leaves at
least as many there. -/
structure Retains (n : Nat) (x : Action α) : Prop where
  enough : Enough n x
  ok : ∀ {m m' : Machine} {a : α}, m.Roles → n ≤ m.stack.items.length → x m = .ok a m' →
    m'.Roles ∧ n ≤ m'.stack.items.length

/-- If the first action leaves enough words, the sequence finds enough. -/
theorem Retains.bind_enough {x : Action α} {f : α → Action β} (hx : Retains n x)
    (hf : ∀ a, Enough n (f a)) : Enough n (x >>= f) := by
  intro m m' e hm hn h
  rcases bind_error_iff.1 h with hfirst | ⟨a, m₁, hfirst, hrest⟩
  · exact hx.enough hm hn hfirst
  · rcases hx.ok hm hn hfirst with ⟨hroles, hheight⟩
    exact hf a hroles hheight hrest

/-- Actions that leave enough words do so one after the other. -/
theorem Retains.bind {x : Action α} {f : α → Action β} (hx : Retains n x)
    (hf : ∀ a, Retains n (f a)) : Retains n (x >>= f) where
  enough := hx.bind_enough fun a => (hf a).enough
  ok hm hn h := by
    rcases bind_ok_iff.1 h with ⟨a, m₁, hfirst, hrest⟩
    rcases hx.ok hm hn hfirst with ⟨hroles, hheight⟩
    exact (hf a).ok hroles hheight hrest

theorem Retains.ite {c : Prop} [Decidable c] {x y : Action α} (hx : Retains n x)
    (hy : Retains n y) : Retains n (if c then x else y) := by
  split
  · exact hx
  · exact hy

/-- What only looks at the machine leaves as many words as there were. -/
theorem Reads.retains {x : Action α} (hx : Reads x) (henough : Enough n x) : Retains n x where
  enough := henough
  ok hm hn h := by
    rcases hx.eq_of_ok h with rfl
    exact ⟨hm, hn⟩

theorem retains_pure (a : α) : Retains n (pure a : Action α) := by
  refine (reads_pure a).retains fun m m' e _ _ h => ?_
  cases h

theorem retains_throw (he : e ≠ .stackUnderflow) : Retains n (throw e : Action α) := by
  refine (reads_throw e).retains fun m m' e' _ _ h => ?_
  cases h
  exact he

/-- What comes after a fault is not executed. -/
theorem enough_throw_bind (he : e ≠ .stackUnderflow) (f : α → Action β) :
    Enough n ((throw e : Action α) >>= f) := by
  intro m m' e' _ _ h
  cases h
  exact he

theorem retains_get : Retains n (get : Action Machine) := by
  refine reads_get.retains fun m m' e _ _ h => ?_
  cases h

/-- A question to the machine is answered, or refused with the fault of the answer. -/
theorem retains_ask {f : Machine → Except Fault α}
    (hf : ∀ {m : Machine} {e : Fault}, m.Roles → n ≤ m.stack.items.length → f m = .error e →
      e ≠ .stackUnderflow) : Retains n (do attempt (f (← get))) := by
  refine (reads_get.bind fun s => reads_attempt (f s)).retains ?_
  intro m m' e hm hn h
  rw [get_bind] at h
  exact hf hm hn (attempt_error_iff.1 h).1

/-- A change that leaves both stacks alone leaves enough words. -/
theorem retains_modifyGet {f : Machine → α × Machine}
    (hf : ∀ m, (f m).2.stack = m.stack ∧ (f m).2.pools = m.pools) :
    Retains n (modifyGet f : Action α) where
  enough m m' e _ _ h := by cases h
  ok {m m' a} hm hn h := by
    rcases hf m with ⟨hstack, hpools⟩
    cases h
    refine ⟨⟨?_, ?_⟩, ?_⟩
    · rw [hstack]
      exact hm.stack
    · rw [hpools]
      exact hm.pools
    · rw [hstack]
      exact hn

theorem retains_modify {f : Machine → Machine}
    (hf : ∀ m, (f m).stack = m.stack ∧ (f m).pools = m.pools) :
    Retains n (modify f : Action PUnit) := retains_modifyGet hf

/-! ### The evaluation stack -/

/-- Fewer words than there are can be required. -/
theorem retains_require {count : Nat} (h : count ≤ n) : Retains n (require count) := by
  refine retains_ask fun {m e} _ hn herror => ?_
  have hok : m.stack.require count = .ok () := Stack.require_ok_iff.2 (Nat.le_trans h hn)
  rw [hok] at herror
  cases herror

theorem retains_peek {depth : Nat} (h : depth < n) : Retains n (peek depth) := by
  refine retains_ask fun {m e} _ hn herror => ?_
  have hinside : depth < m.stack.items.length := Nat.lt_of_lt_of_le h hn
  rw [Stack.peek, List.getElem?_eq_getElem hinside] at herror
  cases herror

theorem retains_reserve (count : Nat) : Retains n (reserve count) := by
  refine retains_ask fun {m e} _ _ herror => ?_
  rw [Stack.eq_of_reserve_error herror]
  exact m.stack.role.overflow_ne

/-- A word that is there can be replaced, and its place stays taken. -/
theorem retains_replace {depth : Nat} (w : Word) (h : depth < n) : Retains n (replace depth w) where
  enough m m' e _ hn herror := by
    -- the word is there, so that it can be replaced
    have hok := replace_ok_iff (w := w) (u := ()).2 ⟨Nat.lt_of_lt_of_le h hn, rfl⟩
    rw [hok] at herror
    cases herror
  ok {m m' u} hm hn hok := by
    rcases replace_ok_iff.1 hok with ⟨-, rfl⟩
    refine ⟨⟨hm.stack, hm.pools⟩, ?_⟩
    rw [Stack.items_withItems, List.length_set]
    exact hn

/-- A push takes no word off, and fails for want of room only. -/
theorem retains_push (w : Word) : Retains n (push w) where
  enough m m' e _ _ h := by
    unfold push at h
    rw [get_bind] at h
    rcases bind_error_iff.1 h with hfault | ⟨stack, m₁, -, hmodify⟩
    · rw [Stack.eq_of_push_error (attempt_error_iff.1 hfault).1]
      exact m.stack.role.overflow_ne
    · cases hmodify
  ok {m m' u} hm hn hok := by
    rcases push_ok_iff.1 hok with ⟨-, rfl⟩
    exact ⟨⟨hm.stack, hm.pools⟩, Nat.le_succ_of_le hn⟩

/-- Fewer words than there are can be dropped. -/
theorem enough_drop {count : Nat} (h : count ≤ n) : Enough n (drop count) := by
  intro m m' e _ hn herror
  rcases exists_drop_ok (Nat.le_trans h hn) with ⟨_, _, hok⟩
  rw [hok] at herror
  cases herror

/-- After words are taken off, only what cannot fail comes. -/
theorem enough_drop_modify {count : Nat} (h : count ≤ n) (f : Machine → Machine) :
    Enough n (do drop count; modify f) := by
  intro m m' e hm hn herror
  rcases bind_error_iff.1 herror with hdrop | ⟨_, m₁, -, hmodify⟩
  · exact enough_drop h hm hn hdrop
  · cases hmodify

/-! ### Everything else -/

theorem retains_reservePool : Retains n reservePool := by
  refine retains_ask fun {m e} _ _ herror => ?_
  rw [Stack.eq_of_reserve_error herror]
  exact m.pools.role.overflow_ne

/-- The stack of pools has a fault of its own. -/
theorem retains_currentPool : Retains n currentPool := by
  refine retains_ask fun {m e} hm _ herror => ?_
  rw [Stack.eq_of_peek_error herror, hm.pools]
  decide

theorem enough_pushPool (a : Word) : Enough n (pushPool a) := by
  intro m m' e _ _ h
  unfold pushPool at h
  rw [get_bind] at h
  rcases bind_error_iff.1 h with hfault | ⟨pools, m₁, -, hmodify⟩
  · rw [Stack.eq_of_push_error (attempt_error_iff.1 hfault).1]
    exact m.pools.role.overflow_ne
  · cases hmodify

theorem enough_popPool : Enough n popPool := by
  intro m m' e hm _ h
  unfold popPool at h
  rw [get_bind] at h
  rcases bind_error_iff.1 h with hfault | ⟨pools, m₁, -, hmodify⟩
  · rw [Stack.eq_of_pop_error (attempt_error_iff.1 hfault).1, hm.pools]
    decide
  · cases hmodify

theorem retains_advance (a distance : Word) : Retains n (advance a distance) := by
  unfold advance
  split
  · exact retains_pure _
  · exact retains_throw (by decide)

theorem retains_poolAddress (offset : Word) : Retains n (poolAddress offset) :=
  retains_currentPool.bind fun pool => retains_advance pool offset

theorem retains_readMemory (a width : Word) : Retains n (readMemory a width) := by
  refine retains_ask fun _ _ herror => ?_
  rw [Heap.eq_of_read_error herror]
  decide

theorem retains_writeMemory (a value width : Word) : Retains n (writeMemory a value width) := by
  refine retains_get.bind fun s => .ite ?_ (retains_throw (by decide))
  exact retains_modify fun _ => ⟨rfl, rfl⟩

theorem retains_allocate (size : Word) : Retains n (allocate size) :=
  retains_modifyGet fun _ => ⟨rfl, rfl⟩

theorem retains_release (a : Word) : Retains n (release a) := by
  refine .ite (retains_pure ()) (retains_get.bind fun s => .ite ?_ ?_)
  · exact retains_modify fun _ => ⟨rfl, rfl⟩
  · refine retains_ask fun _ _ herror => ?_
    rw [Heap.eq_of_unmatched_error herror]
    decide

theorem retains_slice (a : Word) (length : Nat) : Retains n (slice a length) := by
  refine retains_ask fun _ _ herror => ?_
  rw [Heap.eq_of_slice_error herror]
  decide

theorem retains_cString (a : Word) : Retains n (cString a) := by
  refine retains_ask fun _ _ herror => ?_
  rw [Heap.eq_of_cString_error herror]
  decide

/-- The faults of the host are its own. -/
theorem retains_onHost {f : EStateM Fault Host α}
    (hf : ∀ {h h' : Host} {e : Fault}, f h = .error e h' → ∃ reason, e = .hostIo reason) :
    Retains n (onHost f) where
  enough m m' e _ _ h := by
    unfold onHost at h
    split at h
    next => cases h
    next hfault =>
      cases h
      rcases hf hfault with ⟨reason, rfl⟩
      exact nofun
  ok {m m' a} hm hn h := by
    rcases onHost_ok_iff.1 h with ⟨host, -, rfl⟩
    exact ⟨⟨hm.stack, hm.pools⟩, hn⟩

/-- A module that is not loaded is no matter of the stack. -/
theorem module_ne_underflow {index : Word} (h : m.module index = .error e) :
    e ≠ .stackUnderflow := by
  rw [eq_of_module_error h]
  exact nofun

theorem retains_activeModule : Retains n activeModule :=
  retains_ask fun _ _ herror => module_ne_underflow herror

theorem retains_branchTarget (target : Word) : Retains n (branchTarget target) :=
  retains_activeModule.bind fun _ => (retains_pure target).ite (retains_throw (by decide))

theorem retains_frameTarget (index address : Word) : Retains n (frameTarget index address) := by
  have hmodule : Retains n (do attempt ((← get).module index)) :=
    retains_ask fun _ _ herror => module_ne_underflow herror
  exact hmodule.bind fun _ => (retains_pure ()).ite (retains_throw (by decide))

theorem retains_jump (target : Word) : Retains n (jump target) :=
  retains_modify fun _ => ⟨rfl, rfl⟩

theorem retains_enter (index address : Word) : Retains n (enter index address) :=
  retains_modify fun _ => ⟨rfl, rfl⟩

/-! ### Linking -/

/-- Linking fails for other reasons than a short stack. -/
theorem retains_link (path : String) : Retains n (link path) where
  enough m m' e _ _ h := by
    rw [link_eq] at h
    split at h
    · cases h
      decide
    · split at h
      · cases h
        exact nofun
      · cases h
  ok {m m' index} hm hn h := by
    have hlinks := links_of_ok h
    refine ⟨hm.links hlinks, ?_⟩
    rw [hlinks.stack_eq]
    exact hn

theorem retains_unlink (index : Word) : Retains n (unlink index) where
  enough m m' e _ _ h := by
    by_cases hloaded : ∃ module, index ≠ 0 ∧ m.module index = .ok module
    · rcases hloaded with ⟨module, hindex, hmodule⟩
      rw [unlink_of_loaded hindex hmodule] at h
      -- of all that is done to unlink, only unmapping its memory can fail
      split at h
      next =>
        rw [handBack_eq] at h
        cases h
      next hunmap =>
        cases h
        rw [Segment.eq_of_unmapFrom_error hunmap]
        decide
    · rw [unlink_of_not_loaded hloaded] at h
      cases h
      exact nofun
  ok {m m' u} hm hn h := by
    have hunlinks := unlinks_of_ok h
    refine ⟨hm.unlinks hunlinks, ?_⟩
    rw [hunlinks.stack_eq]
    exact hn

theorem resolve_ne_underflow {index : Word} {name : Bytes}
    (h : m.resolve index name = .error e) : e ≠ .stackUnderflow := by
  unfold resolve at h
  split at h
  · cases h
    exact nofun
  · split at h
    next =>
      unfold Linker.resolve at h
      split at h
      · cases h
      · cases h
        exact nofun
    next hmodule =>
      cases h
      exact module_ne_underflow hmodule

end Machine
end StackMachine
