import Mathlib.Data.List.Nodup
import StackMachine.Proofs.Composition
import StackMachine.Proofs.Segment

/-!
# Handles — libraries are released exactly once

The loader issues a handle for every library that it maps, and takes it back when the library is
released. Between the two, the handle belongs to the one module that was linked with it.

* `Loader.Ledger` — what is issued is what was returned or is still held, and nothing is issued
  twice;
* `Machine.Deals` — what a call can do at the loader and to the module table;
* `Machine.Accounted` — what is held are the handles of the linked modules;
* `Machine.handles_released_once` — this holds along every run, so that a machine that is shut down
  has returned all that it was issued.

The handle of the program itself, if it has one, is not the machine's to return.
-/

namespace StackMachine

/-! ## Ledger -/

namespace Loader

def Event.issued? : Event → Option Handle
  | .mapped handle => some handle
  | _ => none

def Event.returned? : Event → Option Handle
  | .released handle => some handle
  | _ => none

def issued (events : List Event) : List Handle := events.filterMap Event.issued?

def returned (events : List Event) : List Handle := events.filterMap Event.returned?

/-- A handle is issued by its mapping, and by nothing else. -/
theorem Event.issued?_eq_some_iff {e : Event} {handle : Handle} :
    e.issued? = some handle ↔ e = .mapped handle := by
  cases e with
  | mapped other => simp [issued?]
  | refused | released => simp [issued?]

theorem Event.returned?_eq_some_iff {e : Event} {handle : Handle} :
    e.returned? = some handle ↔ e = .released handle := by
  cases e with
  | released other => simp [returned?]
  | refused | mapped => simp [returned?]

/-- As many handles are issued as there are mappings. -/
theorem length_issued (events : List Event) :
    (issued events).length = events.countP Event.isMapped := by
  have htest : (fun e : Event => e.issued?.isSome) = Event.isMapped := by
    funext e
    cases e with
    | refused | mapped | released => rfl
  rw [issued, List.length_filterMap_eq_countP, htest]

theorem length_returned (events : List Event) :
    (returned events).length = events.countP Event.isReleased := by
  have htest : (fun e : Event => e.returned?.isSome) = Event.isReleased := by
    funext e
    cases e with
    | refused | mapped | released => rfl
  rw [returned, List.length_filterMap_eq_countP, htest]

theorem count_issued (events : List Event) (handle : Handle) :
    (issued events).count handle = events.count (.mapped handle) := by
  rw [issued, List.count_filterMap]
  refine List.countP_congr fun e _ => ?_
  rw [beq_iff_eq, beq_iff_eq, Event.issued?_eq_some_iff]

theorem count_returned (events : List Event) (handle : Handle) :
    (returned events).count handle = events.count (.released handle) := by
  rw [returned, List.count_filterMap]
  refine List.countP_congr fun e _ => ?_
  rw [beq_iff_eq, beq_iff_eq, Event.returned?_eq_some_iff]

/-- The books of a loader for the events since a point in the past: no handle is issued twice, and
every one that is issued was returned or is held. Handles are numbered in the order of issue. -/
structure Ledger (past events : List Event) (held : List Handle) : Prop where
  numbered : ∀ handle ∈ issued events, handle.id < (events ++ past).countP Event.isMapped
  nodup : (issued events).Nodup
  balance : (issued events).Perm (returned events ++ held)

namespace Ledger

variable {past events : List Event} {held : List Handle}

theorem empty (past : List Event) : Ledger past [] [] where
  numbered _ hmem := absurd hmem List.not_mem_nil
  nodup := List.nodup_nil
  balance := .nil

/-- A library that is refused does not show in the books. -/
theorem refuse (h : Ledger past events held) (path : String) :
    Ledger past (.refused path :: events) held :=
  ⟨h.numbered, h.nodup, h.balance⟩

/-- The number of a new handle is that of the libraries mapped so far, which no older one has. -/
theorem issue (h : Ledger past events held) {handle : Handle}
    (hid : handle.id = (events ++ past).countP Event.isMapped) :
    Ledger past (.mapped handle :: events) (held ++ [handle]) where
  numbered := by
    intro other hmem
    have hcount : (Event.mapped handle :: events ++ past).countP Event.isMapped =
        (events ++ past).countP Event.isMapped + 1 := List.countP_cons_of_pos rfl
    rw [hcount]
    rcases List.mem_cons.1 hmem with rfl | hold
    · rw [hid]
      exact Nat.lt_succ_self _
    · exact Nat.lt_succ_of_lt (h.numbered other hold)
  nodup := by
    -- every older handle has a smaller number
    refine List.nodup_cons.2 ⟨fun hold => ?_, h.nodup⟩
    exact absurd (h.numbered handle hold) (by rw [hid]; exact Nat.lt_irrefl _)
  balance := by
    show (handle :: issued events).Perm (returned events ++ (held ++ [handle]))
    rw [← List.append_assoc]
    exact (h.balance.cons handle).trans (List.perm_append_singleton _ _).symm

/-- A handle that is held may be given back. -/
theorem giveBack (h : Ledger past events held) {handle : Handle} {rest : List Handle}
    (hheld : held.Perm (handle :: rest)) : Ledger past (.released handle :: events) rest where
  numbered := h.numbered
  nodup := h.nodup
  balance := by
    show (issued events).Perm (handle :: returned events ++ rest)
    have hmove : (returned events ++ handle :: rest).Perm (handle :: (returned events ++ rest)) :=
      List.perm_middle
    exact h.balance.trans ((hheld.append_left _).trans hmove)

/-- What was issued was returned or is held. -/
theorem countP_eq (h : Ledger past events held) :
    events.countP Event.isMapped = events.countP Event.isReleased + held.length := by
  have hlength := h.balance.length_eq
  rwa [List.length_append, length_issued, length_returned] at hlength

/-- The books balance for each handle by itself. -/
theorem count_eq (h : Ledger past events held) (handle : Handle) :
    events.count (.mapped handle) = events.count (.released handle) + held.count handle := by
  have hcount := h.balance.count_eq handle
  rwa [List.count_append, count_issued, count_returned] at hcount

/-- No handle is issued twice. -/
theorem count_mapped_le_one (h : Ledger past events held) (handle : Handle) :
    events.count (.mapped handle) ≤ 1 := by
  rw [← count_issued]
  exact List.nodup_iff_count_le_one.1 h.nodup handle

end Ledger
end Loader

/-! ## Loading -/

namespace Linker

open Loader

variable {path : String} {l l' : Loader} {module : Module}

/-- A library that is not found gets no handle. One that does not load returns its handle at once.
-/
theorem history_of_load_error {e : LinkError} (h : load path l = .error e l') :
    l'.history = .refused path :: l.history ∨
      l'.history = .released ⟨l.loads, path⟩ :: .mapped ⟨l.loads, path⟩ :: l.history := by
  unfold load at h
  split at h
  next =>
    cases h
    exact .inl rfl
  next image _ =>
    cases image with
    | none =>
      cases h
      exact .inr rfl
    | some bytes =>
      dsimp only at h
      split at h
      next => cases h
      next =>
        cases h
        exact .inr rfl

/-- A library that loads gets the next handle. -/
theorem history_of_load_ok (h : load path l = .ok module l') :
    module.handle = some ⟨l.loads, path⟩ ∧ l'.history = .mapped ⟨l.loads, path⟩ :: l.history := by
  unfold load at h
  split at h
  next => cases h
  next image _ =>
    cases image with
    | none => cases h
    | some bytes =>
      dsimp only at h
      split at h
      next =>
        cases h
        exact ⟨rfl, rfl⟩
      next => cases h

/-- Unloading a library returns its handle. -/
theorem history_unload {handle : Handle} (h : module.handle = some handle) :
    (unload l module).history = .released handle :: l.history := by
  unfold unload
  rw [h]
  rfl

end Linker

namespace Machine

open Interrupt

variable {α β : Type} {table : Interrupt.Table} {m m' : Machine}

/-! ## Actions that leave linking aside -/

/-- The action leaves the loader and the module table alone, even when it faults. -/
def LeavesModules (x : Action α) : Prop :=
  ∀ m, (left x m).loader = m.loader ∧ (left x m).modules = m.modules

theorem Reads.leavesModules {x : Action α} (hx : Reads x) : LeavesModules x := by
  intro m
  have hsame : left x m = m := by
    rcases left_cases x m with ⟨a, hok⟩ | ⟨e, he⟩
    · exact hx.eq_of_ok hok
    · exact hx.eq_of_error he
  rw [hsame]
  exact ⟨rfl, rfl⟩

/-- Actions that leave the module table alone do so one after the other. -/
theorem LeavesModules.bind {x : Action α} {f : α → Action β} (hx : LeavesModules x)
    (hf : ∀ a, LeavesModules (f a)) : LeavesModules (x >>= f) := by
  intro m
  have hfirst := hx m
  rcases left_cases x m with ⟨a, hok⟩ | ⟨e, he⟩
  · have hsecond := hf a (left x m)
    have hleft : left (x >>= f) m = left (f a) (left x m) := left_congr (bind_of_ok hok)
    rw [hleft]
    exact ⟨hsecond.1.trans hfirst.1, hsecond.2.trans hfirst.2⟩
  · have hleft : left (x >>= f) m = left x m := left_of_error (bind_error_iff.2 (.inl he))
    rw [hleft]
    exact hfirst

theorem leavesModules_restack (f : Stack → Except Fault Stack) :
    LeavesModules (do let stack ← attempt (f (← get).stack); modify fun m => { m with stack }) := by
  refine reads_get.leavesModules.bind fun _ => ?_
  exact (reads_attempt _).leavesModules.bind fun _ _ => ⟨rfl, rfl⟩

theorem leavesModules_onHost (f : EStateM Fault Host α) : LeavesModules (onHost f) := by
  intro m
  unfold left onHost
  cases f m.host with
  | ok a host => exact ⟨rfl, rfl⟩
  | error e host => exact ⟨rfl, rfl⟩

/-- All that instructions are made of leaves the loader and the module table alone. -/
theorem composes_leavesModules : Composes LeavesModules where
  bind := LeavesModules.bind
  attempt r := (reads_attempt r).leavesModules
  require n := (reads_require n).leavesModules
  reserve n := (reads_reserve n).leavesModules
  peek depth := (reads_peek depth).leavesModules
  push w := leavesModules_restack (·.push w)
  replace depth w := leavesModules_restack (·.set depth w)
  drop n := leavesModules_restack (·.drop n)
  onHost := leavesModules_onHost
  learn _ hf := reads_get.leavesModules.bind hf
  change _ hkeeps := hkeeps

/-! ## Dealings with the loader -/

/-- What can happen at the loader and in the module table: nothing, a library that does not load, a
library that gets the next slot, or a slot that is emptied while its library is handed back. -/
inductive Deals (l : Loader) (slots : Array (Option Module)) :
    Loader → Array (Option Module) → Prop
  | nothing : Deals l slots l slots
  | refuses {path e l'} (hload : Linker.load path l = .error e l') : Deals l slots l' slots
  | links {path module l'} (heap : Heap) (hload : Linker.load path l = .ok module l') :
      Deals l slots l' (slots.push (some (install heap module).1))
  | unlinks {index : Nat} {module} (hindex : index ≠ 0)
      (hslot : slots[index]? = some (some module)) :
      Deals l slots (Linker.unload l module) (slots.setIfInBounds index none)

/-- A fault before the loader is asked leaves the machine as it was. -/
theorem link_error {path : String} {e : Fault} (h : link path m = .error e m') :
    e = .libraryOverflow ∧ m' = m ∨
      ∃ cause loader, e = .link cause ∧ Linker.load path m.loader = .error cause loader ∧
        m' = { m with loader } := by
  rw [link_eq] at h
  split at h
  next =>
    cases h
    exact .inl ⟨rfl, rfl⟩
  next =>
    split at h
    next cause loader hload =>
      cases h
      exact .inr ⟨cause, loader, rfl, hload, rfl⟩
    next => cases h

/-- The service that links fails before it links, or as linking fails. -/
theorem linkModule_error {e : Fault} (h : linkModule m = .error e m') :
    m' = m ∨ ∃ path, link path m = .error e m' := by
  rcases (reads_peek 0).bind_error h with heq | ⟨address, hpeek, h⟩
  · exact .inl heq
  rcases (reads_cString address).bind_error h with heq | ⟨text, -, h⟩
  · exact .inl heq
  rcases bind_error_iff.1 h with hlink | ⟨index, m₁, hlink, hreplace⟩
  · exact .inr ⟨_, hlink⟩
  · -- nothing can fail once the library is linked
    have hheight : 0 < m₁.stack.items.length := by
      rcases cons_of_peek (peek_ok_iff.1 hpeek).1 with ⟨rest, hitems⟩
      rw [(links_of_ok hlink).stack_eq, hitems]
      exact Nat.succ_pos _
    have hok := replace_ok_iff (w := index) (u := ()).2 ⟨hheight, rfl⟩
    rw [hok] at hreplace
    cases hreplace

/-- Linking gives a library the next slot. -/
theorem Links.deals {path : String} {index : Word} (h : Links path m index m') :
    Deals m.loader m.modules m'.loader m'.modules := by
  cases h with
  | intro hroom hload => exact .links m.heap hload

/-- Unlinking empties a slot and hands the library back. -/
theorem Unlinks.deals {index : Word} (h : Unlinks index m m') :
    Deals m.loader m.modules m'.loader m'.modules := by
  cases h with
  | intro hindex hmodule hunmap => exact .unlinks (toNat_ne_zero hindex) (module_ok_iff.1 hmodule)

theorem deals_of_eq {l l' : Loader} {slots slots' : Array (Option Module)}
    (h : l' = l ∧ slots' = slots) : Deals l slots l' slots' := by
  rw [h.1, h.2]
  exact .nothing

/-- Linking that fails has loaded no library, or not tried to. -/
theorem deals_of_link_error {path : String} {e : Fault} (h : link path m = .error e m') :
    Deals m.loader m.modules m'.loader m'.modules := by
  rcases link_error h with ⟨-, rfl⟩ | ⟨cause, loader, -, hload, rfl⟩
  · exact .nothing
  · exact .refuses hload

theorem deals_linkModule :
    Deals m.loader m.modules (left linkModule m).loader (left linkModule m).modules := by
  rcases left_cases linkModule m with ⟨_, hok⟩ | ⟨e, he⟩
  · have hserves := serves_of_ok .link hok
    generalize left linkModule m = m' at hserves ⊢
    cases hserves with
    | stream hcode => exact absurd hcode (by decide)
    | link hitems htext hlinks => exact hlinks.deals
  · rcases linkModule_error he with heq | ⟨path, hlink⟩
    · rw [heq]
      exact .nothing
    · exact deals_of_link_error hlink

/-- The memory of a linked module can be unmapped, so that no slot is emptied without its library
being handed back. -/
theorem deals_unlinkModule (hm : Segmented 1 m) :
    Deals m.loader m.modules (left unlinkModule m).loader (left unlinkModule m).modules := by
  rcases left_cases unlinkModule m with ⟨_, hok⟩ | ⟨e, he⟩
  · have hserves := serves_of_ok .unlink hok
    generalize left unlinkModule m = m' at hserves ⊢
    cases hserves with
    | stream hcode => exact absurd hcode (by decide)
    | unlink hitems hunlinks => exact hunlinks.deals
  · rcases unlinkModule_error he with heq | ⟨index, rest, -, htears⟩
    · rw [heq]
      exact .nothing
    · exact absurd htears (hm.not_tears (Nat.le_refl 1))

theorem deals_service (hm : Segmented 1 m) {code : Nat} {service : Action Unit}
    (hservice : Provides code service) :
    Deals m.loader m.modules (left service m).loader (left service m).modules := by
  by_cases hlink : code = 9
  · subst hlink
    cases hservice
    exact deals_linkModule
  by_cases hunlink : code = 10
  · subst hunlink
    cases hservice
    exact deals_unlinkModule hm
  -- no other service has to do with modules
  have hleaves : LeavesModules service := composes_leavesModules.service hservice
    (fun h => absurd h hlink) fun h => absurd h hunlink
  exact deals_of_eq (hleaves m)

theorem deals_exec (htable : table.IsStandard) (hm : Segmented 1 m) (i : Instruction) :
    Deals m.loader m.modules (left (exec table i) m).loader (left (exec table i) m).modules := by
  rcases exec_cases table i m with ⟨e, he⟩ | ⟨op, hop, -, hexec⟩ | ⟨service, -, hget, hexec⟩
  · rw [left_of_error he]
    exact .nothing
  · rw [left_congr hexec]
    exact deals_of_eq (composes_leavesModules.perform i.operand hop m)
  · rw [left_congr hexec]
    rcases htable hget with ⟨code, hservice⟩
    exact deals_service hm hservice

/-- What a call does at the loader and in the module table. -/
theorem deals_call (htable : table.IsStandard) (hm : Segmented 1 m) (call : Call) :
    Deals m.loader m.modules (call.apply table m).loader (call.apply table m).modules := by
  cases call with
  | step =>
    rw [Call.apply]
    rcases step_cases table m with ⟨-, e, he⟩ | ⟨-, i, -, hexec⟩
    · rw [left_of_error he]
      exact .nothing
    · rw [left_congr hexec]
      exact deals_exec htable hm.advanced i
  | link path =>
    rcases left_cases (link path) m with ⟨index, hok⟩ | ⟨e, he⟩
    · exact (links_of_ok hok).deals
    · exact deals_of_link_error he
  | unlink index =>
    rcases left_cases (unlink index) m with ⟨_, hok⟩ | ⟨e, he⟩
    · exact (unlinks_of_ok hok).deals
    · rcases unlink_error he with heq | htears
      · rw [Call.apply, heq]
        exact .nothing
      · exact absurd htears (hm.not_tears (Nat.le_refl 1))

/-! ## Accounts -/

/-- The linked modules: all that are loaded but the program, in the order of their slots. -/
def linked (slots : Array (Option Module)) : List Module := (slots.toList.drop 1).filterMap id

/-- A module that is linked comes behind all others. -/
theorem linked_push {slots : Array (Option Module)} (hsize : 1 ≤ slots.size) (module : Module) :
    linked (slots.push (some module)) = linked slots ++ [module] := by
  unfold linked
  rw [Array.toList_push, List.drop_append_of_le_length hsize, List.filterMap_append]
  rfl

/-- What is at a place is what is missing once the place is empty. -/
theorem perm_filterMap_set {α : Type} {list : List (Option α)} {i : Nat} {a : α}
    (h : list[i]? = some (some a)) :
    (list.filterMap id).Perm (a :: (list.set i none).filterMap id) := by
  induction list generalizing i with
  | nil => cases h
  | cons head tail ih =>
    cases i with
    | zero =>
      cases h
      exact .refl _
    | succ i =>
      have htail := ih h
      cases head with
      | none => exact htail
      | some b => exact (htail.cons b).trans (.swap a b _)

/-- Emptying a slot takes one linked module out. -/
theorem linked_emptied {slots : Array (Option Module)} {index : Nat} {module : Module}
    (hindex : index ≠ 0) (hslot : slots[index]? = some (some module)) :
    (linked slots).Perm (module :: linked (slots.setIfInBounds index none)) := by
  rcases Nat.exists_eq_succ_of_ne_zero hindex with ⟨i, rfl⟩
  have hitem : (slots.toList.drop 1)[i]? = some (some module) := by
    rw [List.getElem?_drop, Nat.add_comm, Array.getElem?_toList]
    exact hslot
  have hset : (slots.setIfInBounds (i + 1) none).toList.drop 1 =
      (slots.toList.drop 1).set i none := by
    rw [Array.toList_setIfInBounds, List.drop_set]
    rfl
  unfold linked
  rw [hset]
  exact perm_filterMap_set hitem

/-- Since a point in the past, the linked modules hold what the loader has issued and not been given
back. -/
structure Accounted (past events : List Loader.Event) (l : Loader) (slots : Array (Option Module)) :
    Prop where
  program : 1 ≤ slots.size
  history : l.history = events ++ past
  handled : ∀ module ∈ linked slots, ∃ handle, module.handle = some handle
  ledger : Loader.Ledger past events ((linked slots).filterMap Module.handle)

/-- A module keeps its handle when its memory is mapped. -/
theorem handle_install (heap : Heap) (module : Module) :
    (install heap module).1.handle = module.handle := by
  unfold install
  split
  · rfl
  · rfl
  · rfl

namespace Accounted

variable {past events : List Loader.Event} {l l' : Loader} {slots : Array (Option Module)}

theorem refuses (h : Accounted past events l slots) {path : String} {e : LinkError}
    (hload : Linker.load path l = .error e l') : ∃ events', Accounted past events' l' slots := by
  rcases Linker.history_of_load_error hload with heq | heq
  · refine ⟨.refused path :: events, h.program, ?_, h.handled, h.ledger.refuse path⟩
    rw [heq, h.history]
    rfl
  · have hid : l.loads = (events ++ past).countP Loader.Event.isMapped := by
      rw [Loader.loads, h.history]
    have hissued : Loader.Ledger past (.mapped ⟨l.loads, path⟩ :: events)
        ((linked slots).filterMap Module.handle ++ [⟨l.loads, path⟩]) := h.ledger.issue hid
    refine ⟨_, h.program, ?_, h.handled, hissued.giveBack (List.perm_append_singleton _ _)⟩
    rw [heq, h.history]
    rfl

theorem links (h : Accounted past events l slots) {path : String} {module : Module} (heap : Heap)
    (hload : Linker.load path l = .ok module l') :
    ∃ events', Accounted past events' l' (slots.push (some (install heap module).1)) := by
  rcases Linker.history_of_load_ok hload with ⟨hhandle, heq⟩
  -- slot zero is taken, so that the new module is the last of the linked ones
  have hlinked := linked_push h.program (install heap module).1
  have hid : l.loads = (events ++ past).countP Loader.Event.isMapped := by
    rw [Loader.loads, h.history]
  refine ⟨.mapped ⟨l.loads, path⟩ :: events, ?_, ?_, ?_, ?_⟩
  · rw [Array.size_push]
    exact Nat.le_succ_of_le h.program
  · rw [heq, h.history]
    rfl
  · intro other hmem
    rw [hlinked] at hmem
    rcases List.mem_append.1 hmem with hold | hnew
    · exact h.handled other hold
    · rw [List.mem_singleton.1 hnew, handle_install, hhandle]
      exact ⟨_, rfl⟩
  · rw [hlinked, List.filterMap_append]
    have hnew : [(install heap module).1].filterMap Module.handle = [⟨l.loads, path⟩] := by
      simp [handle_install, hhandle]
    rw [hnew]
    exact h.ledger.issue hid

theorem unlinks (h : Accounted past events l slots) {index : Nat} {module : Module}
    (hindex : index ≠ 0) (hslot : slots[index]? = some (some module)) :
    ∃ events', Accounted past events' (Linker.unload l module)
      (slots.setIfInBounds index none) := by
  -- the module in the slot is one of the linked ones, and so it holds a handle
  have hperm := linked_emptied hindex hslot
  rcases h.handled module (hperm.mem_iff.2 List.mem_cons_self) with ⟨handle, hhandle⟩
  refine ⟨.released handle :: events, ?_, ?_, ?_, ?_⟩
  · rw [Array.size_setIfInBounds]
    exact h.program
  · rw [Linker.history_unload hhandle, h.history]
    rfl
  · intro other hmem
    exact h.handled other (hperm.mem_iff.2 (List.mem_cons_of_mem _ hmem))
  · have hheld := hperm.filterMap Module.handle
    rw [List.filterMap_cons_some hhandle] at hheld
    exact h.ledger.giveBack hheld

/-- Whatever happens at the loader, the linked modules stay accounted for. -/
theorem deals {slots' : Array (Option Module)} (h : Accounted past events l slots)
    (hdeals : Deals l slots l' slots') : ∃ events', Accounted past events' l' slots' := by
  cases hdeals with
  | nothing => exact ⟨events, h⟩
  | refuses hload => exact h.refuses hload
  | links heap hload => exact h.links heap hload
  | unlinks hindex hslot => exact h.unlinks hindex hslot

/-- There are as many handles as modules that are linked. -/
theorem length_linked (h : Accounted past events l slots) :
    ((linked slots).filterMap Module.handle).length =
      (slots.toList.drop 1).countP Option.isSome := by
  have hall : (linked slots).countP (Module.handle · |>.isSome) = (linked slots).length := by
    refine List.countP_eq_length.2 fun module hmem => ?_
    rcases h.handled module hmem with ⟨handle, hhandle⟩
    rw [hhandle]
    rfl
  rw [List.length_filterMap_eq_countP, hall, linked, List.length_filterMap_eq_countP]
  rfl

end Accounted

/-! ## Runs -/

/-- At the start, nothing was issued and nothing is linked. -/
theorem accounted_start {module : Module} {loader : Loader} {capacities : Capacities} {host : Host}
    (h : start module loader capacities host = .ok m) :
    Accounted loader.history [] m.loader m.modules := by
  rcases start_ok h with ⟨-, rfl⟩
  exact ⟨Nat.le_refl 1, rfl, fun _ hmem => absurd hmem List.not_mem_nil, .empty _⟩

/-- The linked modules are accounted for along every run. -/
theorem accounted_after (htable : table.IsStandard) {past events : List Loader.Event}
    (hsegmented : Segmented 1 m) (hm : Accounted past events m.loader m.modules)
    (calls : List Call)
    (hbound : (m.after table calls).heap.regions.size ≤ Address.maxRegionLength) :
    ∃ events', Accounted past events' (m.after table calls).loader
      (m.after table calls).modules := by
  -- no region is forgotten, so that the bound on the last machine is one on all before it
  have hrun : Segmented 1 (m.after table calls) ∧ ∃ events',
      Accounted past events' (m.after table calls).loader (m.after table calls).modules := by
    refine after_induction (P := fun m => m.heap.regions.size ≤ Address.maxRegionLength →
      Segmented 1 m ∧ ∃ events', Accounted past events' m.loader m.modules) ?_
      (fun _ => ⟨hsegmented, events, hm⟩) calls hbound
    intro m call hm hbound
    rcases hm (Nat.le_trans (regions_le_call htable call) hbound) with
      ⟨hsegmented, events', haccounted⟩
    refine ⟨hsegmented.call htable (Nat.le_refl 1) call hbound, ?_⟩
    exact haccounted.deals (deals_call htable hsegmented call)
  exact hrun.2

/-! ## Shutting down -/

/-- Shutting down hands back the linked modules one after the other. -/
theorem shutDown_eq (m : Machine) :
    m.shutDown =
      (linked m.modules).foldl (fun m module => left (handBack module) m)
        { m with modules := #[] } := by
  have hstep : (fun (m : Machine) (module : Module) => left (handBack module) m) =
      fun m module =>
        { m with
          journal := m.journal.push module.farewell
          loader := Linker.unload m.loader module } := by
    funext m module
    unfold left
    rw [handBack_eq]
  rw [hstep]
  unfold shutDown
  simp only [handBack_eq]
  rfl

/-- Modules that are handed back one after the other return all the handles that they hold. -/
theorem ledger_handBack {past events : List Loader.Event} (modules : List Module)
    (hhandled : ∀ module ∈ modules, ∃ handle, module.handle = some handle)
    (hhistory : m.loader.history = events ++ past)
    (hledger : Loader.Ledger past events (modules.filterMap Module.handle)) :
    ∃ events', (modules.foldl (fun m module => left (handBack module) m) m).loader.history =
      events' ++ past ∧ Loader.Ledger past events' [] := by
  induction modules generalizing m events with
  | nil => exact ⟨events, hhistory, hledger⟩
  | cons module modules ih =>
    -- the first module returns its handle, and the others go on from there
    rcases hhandled module List.mem_cons_self with ⟨handle, hhandle⟩
    rw [List.filterMap_cons_some hhandle] at hledger
    have hleft : (left (handBack module) m).loader = Linker.unload m.loader module := by
      unfold left
      rw [handBack_eq]
    refine ih (fun other hmem => hhandled other (List.mem_cons_of_mem _ hmem)) ?_
      (hledger.giveBack (.refl _))
    rw [hleft, Linker.history_unload hhandle, hhistory]
    rfl

/-! ## Failed links -/

inductive FailsToLink (table : Interrupt.Table) (m : Machine) : Fault → Machine → Prop
  | call {path e m'} (hlink : link path m = .error e m') : FailsToLink table m e m'
  | service {i e m'} (hfetch : fetch m = .ok i m) (hop : Opcode.ofByte? i.opcode = some .int)
      (hget : table.get i.operand = .ok linkModule) (hstep : step table m = .error e m') :
      FailsToLink table m e m'

/-- Linking that fails leaves the modules and guest memory alone, and without a slot it does not
even ask the loader. -/
theorem unchanged_of_link_error {path : String} {e : Fault} (h : link path m = .error e m') :
    m'.modules = m.modules ∧ m'.heap = m.heap ∧ (e = .libraryOverflow → m'.loader = m.loader) := by
  rcases link_error h with ⟨-, rfl⟩ | ⟨cause, loader, rfl, -, rfl⟩
  · exact ⟨rfl, rfl, fun _ => rfl⟩
  · refine ⟨rfl, rfl, fun hoverflow => ?_⟩
    cases hoverflow

/-- A failed link leaves the guest as it was, and the loader too if there was no slot. -/
theorem FailsToLink.unchanged {e : Fault} (h : FailsToLink table m e m') :
    m'.modules = m.modules ∧ m'.heap = m.heap ∧ (e = .libraryOverflow → m'.loader = m.loader) := by
  cases h with
  | call hlink => exact unchanged_of_link_error hlink
  | service hfetch hop hget hstep =>
    rw [step_of_fetch hfetch hop, perform_int, hget] at hstep
    rcases linkModule_error hstep with rfl | ⟨path, hlink⟩
    · exact ⟨rfl, rfl, fun _ => rfl⟩
    · have hsame := unchanged_of_link_error hlink
      exact hsame

/-- At any point of a run, the libraries mapped since the start are those released and those in a
slot, each released once at most; after the machine is shut down, each of them was released exactly
once, and no other. A library that cannot be linked leaves no trace in the guest. -/
theorem handles_released_once {module : Module} {loader : Loader} {capacities : Capacities}
    {host : Host} {first : Machine} (hstart : start module loader capacities host = .ok first)
    {table : Interrupt.Table} (htable : table.IsStandard) (calls : List Call) (m : Machine)
    (hm : m = first.after table calls)
    (hbound : m.heap.regions.size ≤ Address.maxRegionLength) :
    (∃ events, m.loader.history = events ++ loader.history ∧
      events.countP Loader.Event.isMapped = events.countP Loader.Event.isReleased +
        (m.modules.toList.drop 1).countP Option.isSome ∧
      ∀ handle, events.count (.released handle) ≤ events.count (.mapped handle) ∧
        events.count (.mapped handle) ≤ 1) ∧
      (∀ e m', FailsToLink table m e m' →
        m'.modules = m.modules ∧ m'.heap = m.heap ∧
          (e = .libraryOverflow → m'.loader = m.loader)) ∧
      ∃ events, m.shutDown.loader.history = events ++ loader.history ∧
        events.countP Loader.Event.isMapped = events.countP Loader.Event.isReleased ∧
        ∀ handle, events.count (.released handle) = events.count (.mapped handle) ∧
          events.count (.mapped handle) ≤ 1 := by
  have haccounted : ∃ events, Accounted loader.history events m.loader m.modules := by
    subst hm
    exact accounted_after htable (segmented_start hstart) (accounted_start hstart) calls hbound
  rcases haccounted with ⟨events, h⟩
  refine ⟨⟨events, h.history, ?_, fun handle => ⟨?_, ?_⟩⟩, fun e m' hfails => hfails.unchanged, ?_⟩
  · rw [h.ledger.countP_eq, h.length_linked]
  · rw [h.ledger.count_eq handle]
    exact Nat.le_add_right _ _
  · exact h.ledger.count_mapped_le_one handle
  · rw [shutDown_eq]
    have hreturned := ledger_handBack (m := { m with modules := #[] }) (linked m.modules) h.handled
      h.history h.ledger
    rcases hreturned with ⟨events', hhistory, hledger⟩
    refine ⟨events', hhistory, hledger.countP_eq, fun handle => ⟨?_, ?_⟩⟩
    · exact (hledger.count_eq handle).symm
    · exact hledger.count_mapped_le_one handle

/-- Of four libraries that are mapped, two do not load and are released at once, one is unlinked,
and one stays linked until the machine is shut down. A path without a library counts for nothing. -/
theorem handles_released_once_relinked :
    let library : Image := { flags := .library, instructions := #[.of .ret 0] }
    let program : Module := { instructions := #[.of .nop 0] }
    let loader : Loader := .registry
      [("library", some library.encode), ("broken", some []), ("bare", none)]
    let calls : List Call := [.link "library", .link "broken", .link "bare", .link "missing",
      .unlink 1, .link "library"]
    ∃ first m : Machine, start program loader {} {} = .ok first ∧
      Interrupt.standard.IsStandard ∧ m = first.after Interrupt.standard calls ∧
      m.heap.regions.size ≤ Address.maxRegionLength ∧ m.loader.loads = 4 ∧ m.loader.unloads = 3 ∧
      (m.modules.toList.drop 1).countP Option.isSome = 1 ∧
      ∀ handle, m.shutDown.loader.history.count (.released handle) =
        m.shutDown.loader.history.count (.mapped handle) := by
  intro library program loader calls
  have hrun : ∃ first m : Machine, start program loader {} {} = .ok first ∧
      m = first.after Interrupt.standard calls ∧ m.loader.loads = 4 ∧ m.loader.unloads = 3 ∧
      m.heap.regions.size = 0 ∧ loader.history = [] := by
    dsimp only [library, program, loader, calls]
    set_option maxRecDepth 2000 in
    exact ⟨_, _, rfl, rfl, rfl, rfl, rfl, rfl⟩
  rcases hrun with ⟨first, m, hstart, hm, hloads, hunloads, hregions, hempty⟩
  have hbound : m.heap.regions.size ≤ Address.maxRegionLength := by
    rw [hregions]
    exact Nat.zero_le _
  rcases handles_released_once hstart Interrupt.isStandard_standard calls m hm hbound with
    ⟨⟨events, hhistory, hcount, -⟩, -, events', hhistory', -, hreleased⟩
  rw [hempty, List.append_nil] at hhistory hhistory'
  rw [← hhistory] at hcount
  rw [← hhistory'] at hreleased
  have hslots : m.loader.loads = m.loader.unloads +
      (m.modules.toList.drop 1).countP Option.isSome := hcount
  exact ⟨first, m, hstart, Interrupt.isStandard_standard, hm, hbound, hloads, hunloads, by omega,
    fun handle => (hreleased handle).1⟩

end Machine
end StackMachine
