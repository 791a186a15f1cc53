import Mathlib.Data.List.Induction
import StackMachine.Proofs.Enough
import StackMachine.Proofs.Footprint
import StackMachine.Proofs.Segment

/-!
# Pools — who owns the allocations on the pool stack

Pools are allocated from the same guest memory as all else, and guest code can get hold of their
addresses. So a pool can be given back behind the back of the pool stack, but in one way only. What
comes of it depends on the profile of guest memory. In the checked profile the address stays unused,
and the release of the pool fails. In the lenient profile the address may go to another allocation,
even to another pool, and the release of the pool gives back whatever is there.

* `Heap.Steady` — the host can provide every pool, and the profile stays as it is;
* `Machine.Makes`, `Machine.Frees` — the steps that allocate a pool, and that give an address back;
* `Machine.Once` — what has happened on the way to a machine;
* `Machine.Owned` — a pool that was allocated, and is there unless its address was given back since;
* `Machine.Lasting` — in the checked profile, what was given back stays away;
* `Machine.Nested` — runs in which every allocation of a pool is matched with its release;
* `Machine.pools_owned` — the pool stack is like this along every run, so that its top is released
  unless it was given back before, and nested runs leave no trace.
-/

namespace StackMachine

/-! ## Regions of the guest -/

namespace Heap

variable {h h' : Heap} {number length : Nat} {profile : Profile}

/-- The region with a number is live, belongs to guest code and has the length. -/
def Lent (h : Heap) (number length : Nat) : Prop :=
  ∃ r, h.lookup number = some r ∧ r.owner = .guest ∧ r.bytes.size = length

theorem Lent.le_size (hlent : h.Lent number length) : number ≤ h.regions.size := by
  rcases hlent with ⟨r, hlookup, -⟩
  exact le_size_of_lookup hlookup

/-- The next region has another number, in either profile. -/
theorem Lent.ne_next (hlent : h.Lent number length) : number ≠ h.next := by
  rcases hlent with ⟨r, hlookup, -⟩
  exact Heap.ne_next hlookup

/-- A region of the guest stays when another one is added. -/
theorem Lent.insert (hlent : h.Lent number length) (r : Region) :
    (h.insert r).2.Lent number length := by
  have hother : number ≠ h.next := hlent.ne_next
  rcases hlent with ⟨found, hlookup, hfound⟩
  exact ⟨found, by rw [lookup_insert, if_neg hother, hlookup], hfound⟩

theorem Lent.erase (hlent : h.Lent number length) {a : Word} (hother : number ≠ Address.region a) :
    (h.erase a).Lent number length := by
  rcases hlent with ⟨found, hlookup, hfound⟩
  exact ⟨found, by rw [lookup_erase, if_neg hother, hlookup], hfound⟩

/-- Memory of a module is not the guest's to lose. -/
theorem Lent.erase_module (hlent : h.Lent number length) {a : Word}
    (hstarts : h.starts a .module = true) : (h.erase a).Lent number length := by
  refine hlent.erase ?_
  rintro rfl
  rcases hlent with ⟨r, hlookup, howner, -⟩
  rcases starts_iff.1 hstarts with ⟨r', hlookup', -, howner'⟩
  cases hlookup.symm.trans hlookup'
  cases howner.symm.trans howner'

theorem Lent.starts {a : Word} (hlent : h.Lent (Address.region a) length)
    (hoffset : Address.offset a = 0) : h.starts a .guest = true := by
  rcases hlent with ⟨r, hlookup, howner, -⟩
  exact starts_iff.2 ⟨r, hlookup, hoffset, howner⟩

/-- Guest memory of a profile, with a host that can always provide as many bytes as a pool may have.
In the checked profile no number waits to be used again. -/
structure Steady (profile : Profile) (h : Heap) : Prop where
  profile_eq : h.profile = profile
  ample : ∀ most ∈ h.supply, 65535 ≤ most
  free : profile = .checked → h.free = []

/-- What keeps profile and supply has only to keep the checked profile free of numbers that wait. -/
theorem Steady.congr (hsteady : h.Steady profile) (hprofile : h'.profile = h.profile)
    (hsupply : h'.supply = h.supply) (hfree : profile = .checked → h'.free = []) :
    h'.Steady profile where
  profile_eq := hprofile.trans hsteady.profile_eq
  ample := by
    rw [hsupply]
    exact hsteady.ample
  free := hfree

theorem Steady.insert (hsteady : h.Steady profile) (r : Region) :
    (h.insert r).2.Steady profile :=
  hsteady.congr (h.profile_insert r) (h.supply_insert r) fun hchecked =>
    free_insert (hsteady.free hchecked) r

/-- In the checked profile the number of a region that is taken out does not wait. -/
theorem Steady.erase (hsteady : h.Steady profile) (a : Word) : (h.erase a).Steady profile := by
  refine hsteady.congr (h.profile_erase a) (h.supply_erase a) fun hchecked => ?_
  rw [free_erase (hsteady.profile_eq.trans hchecked)]
  exact hsteady.free hchecked

theorem Steady.overwrite (hsteady : h.Steady profile) (a : Word) (bytes : Bytes) :
    (h.overwrite a bytes).Steady profile := by
  refine hsteady.congr (h.profile_overwrite a bytes) (h.supply_overwrite a bytes) fun hchecked => ?_
  rw [free_overwrite]
  exact hsteady.free hchecked

/-- The host stays able to provide a pool after it was asked. -/
theorem Steady.asked (hsteady : h.Steady profile) :
    (h.withSupply h.supply.tail).Steady profile where
  profile_eq := hsteady.profile_eq
  ample most hmost := hsteady.ample most (List.mem_of_mem_tail hmost)
  free := hsteady.free

theorem Steady.allocate (hsteady : h.Steady profile) (size : Word) :
    (h.allocate size).2.Steady profile := by
  unfold Heap.allocate
  split
  next =>
    dsimp only
    split
    · exact hsteady.asked.insert _
    · exact hsteady.asked
  next => exact hsteady

/-- The host is never short of bytes for a pool. -/
theorem Steady.allocate_pool (hsteady : h.Steady profile) (size : UInt16) :
    h.allocate size.toUInt64 =
      (h.withSupply h.supply.tail).insert ⟨.guest, Array.replicate size.toNat 0⟩ := by
  have hprovides : h.provides size.toUInt64.toNat = true := by
    rw [UInt16.toNat_toUInt64]
    unfold provides
    split
    next => rfl
    next most rest hsupply =>
      have hmost : 65535 ≤ most := hsteady.ample most (by simp [hsupply])
      have hsmall : size.toNat < 65536 := size.toNat_lt
      exact decide_eq_true (by omega)
  rw [allocate_of_provides (toUInt64_le_maxRegionLength size) hprovides, UInt16.toNat_toUInt64]

/-- In the checked profile, a number that no region has any more is not given out again. -/
theorem Steady.gone_insert (hsteady : h.Steady .checked) (hknown : number ≤ h.regions.size)
    (hgone : h.lookup number = none) (r : Region) : (h.insert r).2.lookup number = none := by
  rw [lookup_insert, next_of_nil (hsteady.free rfl), if_neg (by omega), hgone]

/-- A region that is gone stays so when another one is taken out. -/
theorem gone_erase (hgone : h.lookup number = none) (a : Word) :
    (h.erase a).lookup number = none := by
  rw [lookup_erase, hgone, ite_self]

end Heap

namespace Machine

variable {table : Interrupt.Table} {m m' : Machine} {op op' : Opcode} {operand operand' a : Word}
  {number length : Nat} {profile : Profile}

/-! ## Runs and the profile -/

/-- A module that is installed adds at most one region. -/
theorem install_heap_cases (heap : Heap) (module : Module) :
    (install heap module).2 = heap ∨ ∃ r, (install heap module).2 = (heap.insert r).2 := by
  unfold install
  split
  · exact .inl rfl
  · exact .inl rfl
  · exact .inr ⟨_, rfl⟩

theorem Next.unique (h : m.Next op operand) (h' : m.Next op' operand') :
    op' = op ∧ operand' = operand := by
  rcases h with ⟨i, hfetch, hbyte, rfl⟩
  rcases h' with ⟨i', hfetch', hbyte', rfl⟩
  cases hfetch.symm.trans hfetch'
  cases hbyte.symm.trans hbyte'
  exact ⟨rfl, rfl⟩

/-- The step gives back the address on top of the stack. -/
def Frees (table : Interrupt.Table) (m : Machine) (a : Word) : Prop :=
  m.Calls table 8 ∧ m.Succeeds table ∧ ∃ rest, m.stack.items = a :: rest

/-- The step allocates a pool at an address. The pool table of the active module gives its
length. -/
def Makes (table : Interrupt.Table) (m : Machine) (a : Word) (length : Nat) : Prop :=
  ∃ key module m', m.Next .mallocPool key ∧ m.module m.active = .ok module ∧
    length = (module.pool.get key).toNat ∧ step table m = .ok () m' ∧
    m'.pools.items = a :: m.pools.items ∧ m.heap.lookup (Address.region a) = none ∧
    m'.heap.lookup (Address.region a) = some ⟨.guest, Array.replicate length 0⟩

/-- Two operations change the pool stack. -/
theorem Performs.pools_eq (h : Performs operand m op m') (hmalloc : op ≠ .mallocPool)
    (hfree : op ≠ .freePool) : m'.pools = m.pools := by
  cases h with
  | mallocPool => exact absurd rfl hmalloc
  | freePool => exact absurd rfl hfree
  | jmpZero hbranch =>
    cases hbranch with
    | taken => rfl
    | passed => rfl
  | jmpNotZero hbranch =>
    cases hbranch with
    | taken => rfl
    | passed => rfl
  | _ => rfl

theorem Serves.pools_eq {code : Nat} (h : Serves m code m') : m'.pools = m.pools := by
  cases h with
  | link _ _ hlinks =>
    cases hlinks
    rfl
  | unlink _ hunlinks =>
    cases hunlinks
    rfl
  | _ => rfl

theorem Falters.pools_eq {code : Nat} (h : Falters m code m') : m'.pools = m.pools := by
  cases h with
  | clean hsame =>
    rcases hsame with ⟨host, loader, journal, rfl⟩
    rfl
  | unlink _ htears =>
    cases htears
    rfl
  | read => rfl

/-- Two operations change the pool stack, and only if they succeed. -/
theorem pools_of_step (htable : table.IsStandard)
    (hother : ∀ op operand, m.Next op operand → op = .mallocPool ∨ op = .freePool →
      ¬m.Succeeds table) : (left (step table) m).pools = m.pools := by
  rcases step_cases table m with ⟨-, e, hstalled⟩ | ⟨-, i, hfetch, hstep⟩
  · rw [left_of_error hstalled]
  rcases exec_cases table i m.advanced with ⟨e, hrefused⟩ | ⟨op, hop, hbyte, hexec⟩ |
    ⟨service, hbyte, hget, -⟩
  · rw [left_of_error (hstep.trans hrefused)]
    rfl
  · have hnext : m.Next op i.operand := ⟨i, hfetch, hbyte, rfl⟩
    rcases left_cases (step table) m with ⟨_, hok⟩ | ⟨e, he⟩
    · have hsucceeds : m.Succeeds table := ⟨_, hok⟩
      have hperforms : Performs i.operand m.advanced op _ := hnext.performs hop hok
      exact hperforms.pools_eq (fun h => hother op _ hnext (.inl h) hsucceeds)
        fun h => hother op _ hnext (.inr h) hsucceeds
    · -- an operation that faults leaves both stacks alone
      have hfault := he
      rw [hstep, hexec] at hfault
      rcases perform_clean hop e _ hfault with ⟨host, loader, journal, heq⟩
      rw [heq]
      rfl
  · rcases htable hget with ⟨code, hprovides⟩
    have hcalls : m.Calls table code := ⟨_, service, ⟨i, hfetch, hbyte, rfl⟩, hget, hprovides⟩
    rcases left_cases (step table) m with ⟨_, hok⟩ | ⟨e, he⟩
    · exact (hcalls.serves hok).pools_eq
    · exact (hcalls.falters he).pools_eq

/-- A pool gets the next region number. -/
theorem Next.mallocPool {key : Word} (hnext : m.Next .mallocPool key)
    (hsteady : m.heap.Steady profile) (hstep : step table m = .ok () m') :
    ∃ module, m.module m.active = .ok module ∧
      m'.pools = m.pools.withItems (Address.base m.heap.next :: m.pools.items) ∧
      m'.heap = ((m.heap.withSupply m.heap.supply.tail).insert
        ⟨.guest, Array.replicate (module.pool.get key).toNat 0⟩).2 := by
  have hperforms : Performs key m.advanced .mallocPool m' := hnext.performs (by decide) hstep
  cases hperforms with
  | @mallocPool module hroom hmodule =>
    have hallocate := hsteady.allocate_pool (module.pool.get key)
    refine ⟨module, hmodule, ?_, congrArg Prod.snd hallocate⟩
    show m.pools.withItems ((m.heap.allocate _).1 :: m.pools.items) = _
    rw [hallocate]
    rfl

/-- As long as region numbers fit in an address, the pool gets the first address of a region that
was not there before. -/
theorem Next.makes {key : Word} (hnext : m.Next .mallocPool key) (hsteady : m.heap.Steady profile)
    (hstep : step table m = .ok () m') (hbound : m'.heap.regions.size ≤ Address.maxRegionLength) :
    ∃ a length, m.Makes table a length ∧ a ≠ 0 ∧ Address.offset a = 0 ∧
      Address.region a = m.heap.next ∧ m'.pools = m.pools.withItems (a :: m.pools.items) ∧
      m'.heap = ((m.heap.withSupply m.heap.supply.tail).insert
        ⟨.guest, Array.replicate length 0⟩).2 := by
  rcases hnext.mallocPool hsteady hstep with ⟨module, hmodule, hpools, hheap⟩
  have hregion : Address.region (Address.base m.heap.next) = m.heap.next := by
    refine Address.region_base (Nat.le_trans ?_ hbound)
    rw [hheap, Heap.size_insert]
    exact Nat.le_max_right _ _
  refine ⟨_, _, ⟨key, module, m', hnext, hmodule, rfl, hstep, ?_, ?_, ?_⟩, ?_,
    Address.offset_base _, hregion, hpools, hheap⟩
  · rw [hpools]
    rfl
  · rw [hregion]
    exact m.heap.lookup_next
  · rw [hregion, hheap, Heap.lookup_insert]
    exact if_pos rfl
  · -- zero is the number of no region
    intro hzero
    rw [hzero] at hregion
    exact m.heap.next_ne_zero hregion.symm

/-- A release that succeeds gives back the pool on top and takes it off. -/
theorem Next.freePool (hnext : m.Next .freePool operand) (hstep : step table m = .ok () m') :
    ∃ a rest, m.pools.items = a :: rest ∧ m.heap.release a = .ok m'.heap ∧
      m'.pools = m.pools.withItems rest := by
  have hperforms : Performs operand m.advanced .freePool m' := hnext.performs (by decide) hstep
  cases hperforms with
  | freePool hpools hrelease => exact ⟨_, _, hpools, hrelease, rfl⟩

/-- Where it is checked, an address that is given back was that of a region, which is gone then. -/
theorem Frees.gone (h : m.Frees table a) (hnull : a ≠ 0) (hchecked : m.heap.profile = .checked) :
    Address.region a ≤ m.heap.regions.size ∧
      (left (step table) m).heap.lookup (Address.region a) = none := by
  rcases h with ⟨hcalls, ⟨m', hstep⟩, rest, hitems⟩
  rw [left_of_ok hstep]
  cases hcalls.serves hstep with
  | stream hcode => exact absurd hcode (by decide)
  | free hitems' hrelease =>
    cases hitems.symm.trans hitems'
    rcases Heap.release_ok_iff.1 hrelease with ⟨hzero | ⟨hlenient, -⟩, -⟩ | ⟨-, hstarts, hheap⟩
    · exact absurd hzero hnull
    · cases hchecked.symm.trans hlenient
    · rcases Heap.starts_iff.1 hstarts with ⟨r, hlookup, -⟩
      refine ⟨Heap.le_size_of_lookup hlookup, ?_⟩
      show Heap.lookup _ _ = none
      rw [hheap, Heap.lookup_erase, if_pos rfl]

/-- A step takes a region of the guest only by giving back its first address, which it finds on top
of one of the two stacks. -/
theorem lent_step (htable : table.IsStandard) (hoffset : Address.offset a = 0)
    (hlent : m.heap.Lent (Address.region a) length) :
    (left (step table) m).heap.Lent (Address.region a) length ∨ m.Frees table a ∨
      ∃ operand rest, m.Next .freePool operand ∧ m.Succeeds table ∧
        m.pools.items = a :: rest := by
  rcases hlent with ⟨r, hlookup, howner, hsize⟩
  have hfirst {b : Word} (hbase : b.toNat = Address.region a * Address.offsets) : b = a := by
    rcases Address.toNat_eq_iff.1 hbase with ⟨hregion, hzero⟩
    exact Address.eq_of_region_eq hzero hoffset hregion
  -- of the three ways to remove a region, unlinking needs one that is not the guest's
  rcases (touches_step htable m).kept hlookup with ⟨-, hremoves⟩ | ⟨r', hstays, howner', hsize', -⟩
  · cases hremoves with
    | @freePool operand pool pools hnext hok hpools _ hbase =>
      cases hfirst hbase
      exact .inr (.inr ⟨operand, pools, hnext, hok, hpools⟩)
    | @free b rest hcalls hok hitems _ hbase =>
      cases hfirst hbase
      exact .inr (.inl ⟨hcalls, hok, rest, hitems⟩)
    | unlink hcalls hok hitems hmodule hmemory hstarts hbase =>
      rw [← (Address.toNat_eq_iff.1 hbase).1] at hlookup
      rcases Heap.starts_iff.1 hstarts with ⟨r', hlookup', -, howner'⟩
      cases hlookup.symm.trans hlookup'
      cases howner.symm.trans howner'
  · exact .inl ⟨r', hstays, howner'.trans howner, hsize'.trans hsize⟩

/-- The host may link and unlink modules. Neither has to do with pools. -/
theorem link_cases (path : String) (m : Machine) :
    (left (link path) m).pools = m.pools ∧ ((left (link path) m).heap = m.heap ∨
      ∃ r, (left (link path) m).heap = (m.heap.insert r).2) := by
  rcases left_cases (link path) m with ⟨index, hok⟩ | ⟨e, he⟩
  · generalize left (link path) m = m' at hok ⊢
    cases links_of_ok hok with
    | @intro module loader hroom hload =>
      exact ⟨rfl, install_heap_cases m.heap module⟩
  · rcases clean_link path e _ he with ⟨host, loader, journal, heq⟩
    rw [heq]
    exact ⟨rfl, .inl rfl⟩

/-- Unlinking takes at most the memory of a module. -/
theorem unlink_cases (index : Word) (m : Machine) :
    (left (unlink index) m).pools = m.pools ∧ ((left (unlink index) m).heap = m.heap ∨
      ∃ base, m.heap.starts base .module = true ∧
        (left (unlink index) m).heap = m.heap.erase base) := by
  rcases left_cases (unlink index) m with ⟨_, hok⟩ | ⟨e, he⟩
  · generalize left (unlink index) m = m' at hok ⊢
    cases unlinks_of_ok hok with
    | intro hindex hmodule hunmap =>
      refine ⟨rfl, ?_⟩
      rcases Segment.unmapFrom_cases hunmap with ⟨-, rfl⟩ | ⟨base, length, -, hstarts, rfl⟩
      · exact .inl rfl
      · exact .inr ⟨base, hstarts, rfl⟩
  · rcases unlink_error he with heq | htears
    · rw [heq]
      exact ⟨rfl, .inl rfl⟩
    · generalize left (unlink index) m = m' at htears ⊢
      cases htears
      exact ⟨rfl, .inl rfl⟩

/-- In the checked profile, a region that is gone does not come back. -/
theorem gone_call (htable : table.IsStandard) (call : Call) (hsteady : m.heap.Steady .checked)
    (hknown : number ≤ m.heap.regions.size) (hgone : m.heap.lookup number = none) :
    (call.apply table m).heap.lookup number = none := by
  cases call with
  | step =>
    cases hlookup : (left (step table) m).heap.lookup number with
    | none => exact hlookup
    | some r =>
      have hnew : number = m.heap.next := ((touches_step htable m).added hgone hlookup).1
      rw [Heap.next_of_nil (hsteady.free rfl)] at hnew
      exact absurd hknown (by omega)
  | link path =>
    show (left (link path) m).heap.lookup number = none
    rcases (link_cases path m).2 with heq | ⟨r, heq⟩
    · rw [heq]
      exact hgone
    · rw [heq]
      exact hsteady.gone_insert hknown hgone r
  | unlink index =>
    show (left (unlink index) m).heap.lookup number = none
    rcases (unlink_cases index m).2 with heq | ⟨base, -, heq⟩
    · rw [heq]
      exact hgone
    · rw [heq]
      exact Heap.gone_erase hgone base

/-- What can become of a pool on the stack in one call. -/
theorem lent_call (htable : table.IsStandard) (call : Call) (hoffset : Address.offset a = 0)
    (hlent : m.heap.Lent (Address.region a) length) :
    (call.apply table m).heap.Lent (Address.region a) length ∨
      call = .step ∧ (m.Frees table a ∨ ∃ operand rest, m.Next .freePool operand ∧
        m.Succeeds table ∧ m.pools.items = a :: rest) := by
  cases call with
  | step =>
    rcases lent_step htable hoffset hlent with hstays | hgone
    · exact .inl hstays
    · exact .inr ⟨rfl, hgone⟩
  | link path =>
    refine .inl ?_
    show (left (link path) m).heap.Lent _ _
    rcases (link_cases path m).2 with heq | ⟨r, heq⟩
    · rw [heq]
      exact hlent
    · rw [heq]
      exact hlent.insert r
  | unlink index =>
    refine .inl ?_
    show (left (unlink index) m).heap.Lent _ _
    rcases (unlink_cases index m).2 with heq | ⟨base, hstarts, heq⟩
    · rw [heq]
      exact hlent
    · rw [heq]
      exact hlent.erase_module hstarts

/-! ## What has happened -/

/-- On the way from the first machine through the calls, there was a step with the property. -/
def Once (table : Interrupt.Table) (first : Machine) (calls : List Call) (P : Machine → Prop) :
    Prop :=
  ∃ earlier later, calls = earlier ++ .step :: later ∧ P (first.after table earlier)

variable {first : Machine} {calls : List Call} {P : Machine → Prop}

theorem after_concat (first : Machine) (calls : List Call) (call : Call) :
    first.after table (calls ++ [call]) = call.apply table (first.after table calls) := by
  unfold after
  rw [List.foldl_append]
  rfl

/-- What has happened so far, or in the last call. -/
theorem once_concat (call : Call) :
    Once table first (calls ++ [call]) P ↔
      Once table first calls P ∨ call = .step ∧ P (first.after table calls) := by
  constructor
  · rintro ⟨earlier, later, hcalls, hP⟩
    rcases List.eq_nil_or_concat later with rfl | ⟨init, last, rfl⟩
    · rcases List.append_inj' hcalls rfl with ⟨rfl, hcall⟩
      cases hcall
      exact .inr ⟨rfl, hP⟩
    · rw [List.concat_eq_append, ← List.cons_append, ← List.append_assoc] at hcalls
      rcases List.append_inj' hcalls rfl with ⟨rfl, -⟩
      exact .inl ⟨earlier, init, rfl, hP⟩
  · rintro (⟨earlier, later, rfl, hP⟩ | ⟨rfl, hP⟩)
    · exact ⟨earlier, later ++ [call], by simp, hP⟩
    · exact ⟨calls, [], rfl, hP⟩

/-- What has happened since some time has happened. -/
theorem Once.of_since {before since : List Call}
    (h : Once table (first.after table before) since P) : Once table first (before ++ since) P := by
  rcases h with ⟨earlier, later, rfl, hP⟩
  refine ⟨before ++ earlier, later, (List.append_assoc _ _ _).symm, ?_⟩
  unfold after at hP ⊢
  rwa [List.foldl_append]

/-! ## What a call does to the pool stack -/

/-- The pool stack after a call. -/
inductive Shifts (table : Interrupt.Table) (m : Machine) (call : Call) : Prop
  | keeps (hpools : (call.apply table m).pools = m.pools)
      (hnone : ∀ operand, call = .step → m.Next .freePool operand → ¬m.Succeeds table)
  | makes {key a : Word} {length : Nat} (hcall : call = .step) (hnext : m.Next .mallocPool key)
      (hmakes : m.Makes table a length) (hnull : a ≠ 0) (hoffset : Address.offset a = 0)
      (hregion : Address.region a = m.heap.next)
      (hitems : (call.apply table m).pools.items = a :: m.pools.items)
      (hlent : (call.apply table m).heap.Lent (Address.region a) length)
  | frees {a : Word} (hitems : m.pools.items = a :: (call.apply table m).pools.items)

/-- The step after the calls `before` has allocated the pool above the pools `rest`, and the pool
has been on the stack during the calls `since`. -/
structure Held (table : Interrupt.Table) (first : Machine) (before since : List Call) (a : Word)
    (rest : List Word) (length : Nat) : Prop where
  makes : (first.after table before).Makes table a length
  above : (first.after table before).pools.items = rest
  stays : ∀ earlier later, since = earlier ++ later →
    ∃ newer, (first.after table (before ++ .step :: earlier)).pools.items = newer ++ a :: rest

/-- The pool between the `newer` ones and the `rest` was allocated by a step with its length. Unless
its address was given back since then, it is there, and is none of the newer ones. -/
structure Owned (table : Interrupt.Table) (first : Machine) (calls : List Call)
    (newer : List Word) (a : Word) (rest : List Word) : Prop where
  nonzero : a ≠ 0
  base : Address.offset a = 0
  held : ∃ before since length, calls = before ++ .step :: since ∧
    Held table first before since a rest length ∧
    (¬Once table (first.after table (before ++ [.step])) since (·.Frees table a) →
      (first.after table calls).heap.Lent (Address.region a) length ∧ a ∉ newer)

def Pooled (table : Interrupt.Table) (first : Machine) (calls : List Call) : Prop :=
  ∀ newer a rest, (first.after table calls).pools.items = newer ++ a :: rest →
    Owned table first calls newer a rest

/-- A pool that is still on the stack after a call has been there all the time. -/
theorem Held.concat {before since : List Call} {newer rest : List Word} {call : Call}
    (hheld : Held table first before since a rest length)
    (hitems : (first.after table (before ++ .step :: (since ++ [call]))).pools.items =
      newer ++ a :: rest) :
    Held table first before (since ++ [call]) a rest length where
  makes := hheld.makes
  above := hheld.above
  stays earlier later hsince := by
    rcases List.eq_nil_or_concat later with rfl | ⟨init, last, rfl⟩
    · rw [List.append_nil] at hsince
      exact ⟨newer, hsince ▸ hitems⟩
    · rw [List.concat_eq_append, ← List.append_assoc] at hsince
      exact hheld.stays earlier init (List.append_inj' hsince rfl).1

/-- A pool that stays on the stack stays owned. -/
theorem Owned.call (htable : table.IsStandard) {newer newer' rest : List Word} (call : Call)
    (howned : Owned table first calls newer a rest)
    (hitems : (first.after table (calls ++ [call])).pools.items = newer' ++ a :: rest)
    (hkept : ∀ length, (first.after table calls).heap.Lent (Address.region a) length → a ∉ newer →
      a ∉ newer' ∧ ∀ operand others, call = .step →
        (first.after table calls).Next .freePool operand →
          (first.after table calls).Succeeds table →
            (first.after table calls).pools.items ≠ a :: others) :
    Owned table first (calls ++ [call]) newer' a rest := by
  rcases howned.held with ⟨before, since, length, rfl, hheld, hlent⟩
  rw [List.append_assoc, List.cons_append] at hitems ⊢
  refine ⟨howned.nonzero, howned.base, before, since ++ [call], length, rfl, hheld.concat hitems,
    fun hnever => ?_⟩
  rw [once_concat, not_or] at hnever
  have hafter : first.after table (before ++ .step :: (since ++ [call])) =
      call.apply table (first.after table (before ++ .step :: since)) := by
    rw [← after_concat, List.append_assoc, List.cons_append]
  have hsince : (first.after table (before ++ [.step])).after table since =
      first.after table (before ++ .step :: since) := by
    simp [after]
  rcases hlent hnever.1 with ⟨hstill, hnewer⟩
  rcases hkept length hstill hnewer with ⟨hnewer', hother⟩
  refine ⟨?_, hnewer'⟩
  rw [hafter]
  rcases lent_call htable call howned.base hstill with
    hthere | ⟨rfl, hfrees | ⟨operand, others, hnext, hok, hpools⟩⟩
  · exact hthere
  · exact absurd ⟨rfl, hsince ▸ hfrees⟩ hnever.2
  · exact absurd hpools (hother operand others rfl hnext hok)

/-- A new pool is owned as it is. -/
theorem owned_makes (hmakes : (first.after table calls).Makes table a length) (hnull : a ≠ 0)
    (hoffset : Address.offset a = 0)
    (hitems : (first.after table (calls ++ [.step])).pools.items =
      a :: (first.after table calls).pools.items)
    (hlent : (first.after table (calls ++ [.step])).heap.Lent (Address.region a) length) :
    Owned table first (calls ++ [.step]) [] a (first.after table calls).pools.items := by
  refine ⟨hnull, hoffset, calls, [], length, rfl, ⟨hmakes, rfl, fun earlier later hnil => ?_⟩,
    fun _ => ⟨hlent, List.not_mem_nil⟩⟩
  rw [(List.append_eq_nil_iff.1 hnil.symm).1]
  exact ⟨[], hitems⟩

/-- Whatever a call does to the pool stack, all pools on it are owned. -/
theorem Pooled.call (htable : table.IsStandard) (hpooled : Pooled table first calls) (call : Call)
    (hshifts : (first.after table calls).Shifts table call) :
    Pooled table first (calls ++ [call]) := by
  intro newer a rest hitems
  have hafter : first.after table (calls ++ [call]) = call.apply table (first.after table calls) :=
    after_concat first calls call
  cases hshifts with
  | keeps hpools hnone =>
    have hbefore : (first.after table calls).pools.items = newer ++ a :: rest := by
      rw [← hitems, hafter, hpools]
    refine (hpooled newer a rest hbefore).call htable call hitems fun _ _ hnewer => ?_
    exact ⟨hnewer, fun operand _ hcall hnext hok => absurd hok (hnone operand hcall hnext)⟩
  | @makes key x length hcall hnext hmakes hnull hoffset hregion hpushed hlent =>
    rw [← hafter] at hpushed hlent
    cases hcall
    rw [hpushed] at hitems
    cases newer with
    | nil =>
      cases hitems
      exact owned_makes hmakes hnull hoffset hpushed hlent
    | cons y newer =>
      rcases List.cons.inj hitems with ⟨rfl, hbefore⟩
      refine (hpooled newer a rest hbefore).call htable .step (hpushed.trans hitems)
        fun size hold hnewer => ⟨?_, fun operand _ _ hfree => ?_⟩
      · -- the new number is that of no region that is there
        intro hmem
        rcases List.mem_cons.1 hmem with rfl | hmem
        · exact hold.ne_next hregion
        · exact hnewer hmem
      · cases (hnext.unique hfree).1
  | @frees x hpopped =>
    rw [← hafter, hitems] at hpopped
    refine (hpooled (x :: newer) a rest hpopped).call htable call hitems fun _ _ hnewer => ?_
    refine ⟨fun hmem => hnewer (List.mem_cons_of_mem x hmem), fun _ others _ _ _ htop => ?_⟩
    -- the pool that is taken off is another one
    rw [hpopped] at htop
    cases htop
    exact hnewer List.mem_cons_self

/-! ## The checked profile -/

/-- No two pools are the same, and no region is where an address was given back. -/
structure Lasting (table : Interrupt.Table) (first : Machine) (calls : List Call) : Prop where
  nodup : (first.after table calls).pools.items.Nodup
  gone : ∀ a, a ≠ 0 → Once table first calls (·.Frees table a) →
    Address.region a ≤ (first.after table calls).heap.regions.size ∧
      (first.after table calls).heap.lookup (Address.region a) = none

/-- A pool whose address was never given back is there. -/
theorem Owned.lent_of_never {newer rest : List Word} (howned : Owned table first calls newer a rest)
    (hnever : ¬Once table first calls (·.Frees table a)) :
    ∃ length, (first.after table calls).heap.Lent (Address.region a) length := by
  rcases howned.held with ⟨before, since, length, rfl, -, hlent⟩
  refine ⟨length, (hlent fun hsince => hnever ?_).1⟩
  have honce := hsince.of_since
  rwa [List.append_assoc] at honce

/-- Every pool on the stack has had a number, whether it is there or not. -/
theorem Lasting.region_le (hlasting : Lasting table first calls)
    (hpooled : Pooled table first calls) (ha : a ∈ (first.after table calls).pools.items) :
    Address.region a ≤ (first.after table calls).heap.regions.size := by
  rcases List.append_of_mem ha with ⟨newer, rest, hitems⟩
  have howned : Owned table first calls newer a rest := hpooled newer a rest hitems
  by_cases hfreed : Once table first calls (·.Frees table a)
  · exact (hlasting.gone a howned.nonzero hfreed).1
  · rcases howned.lent_of_never hfreed with ⟨length, hlent⟩
    exact hlent.le_size

/-- In the checked profile, a call brings back no address that was given back. -/
theorem Lasting.call (htable : table.IsStandard) (hlasting : Lasting table first calls)
    (hpooled : Pooled table first calls) (hsteady : (first.after table calls).heap.Steady .checked)
    (call : Call) (hshifts : (first.after table calls).Shifts table call) :
    Lasting table first (calls ++ [call]) := by
  constructor
  case nodup =>
    rw [after_concat]
    cases hshifts with
    | keeps hpools hnone =>
      rw [hpools]
      exact hlasting.nodup
    | @makes key a length hcall hnext hmakes hnull hoffset hregion hpushed hlent =>
      rw [hpushed]
      refine List.nodup_cons.2 ⟨fun hmem => ?_, hlasting.nodup⟩
      -- numbers are not used again, so that the new one is higher than all before
      have hle := hlasting.region_le hpooled hmem
      rw [hregion, Heap.next_of_nil (hsteady.free rfl)] at hle
      exact Nat.not_succ_le_self _ hle
    | frees hpopped =>
      have hnodup := hlasting.nodup
      rw [hpopped] at hnodup
      exact (List.nodup_cons.1 hnodup).2
  case gone =>
    intro a hnull hfreed
    have hgrows := regions_le_call (m := first.after table calls) htable call
    rw [after_concat]
    rcases (once_concat call).1 hfreed with hearlier | ⟨rfl, hfrees⟩
    · rcases hlasting.gone a hnull hearlier with ⟨hknown, hgone⟩
      exact ⟨Nat.le_trans hknown hgrows, gone_call htable call hsteady hknown hgone⟩
    · rcases hfrees.gone hnull hsteady.profile_eq with ⟨hknown, hgone⟩
      exact ⟨Nat.le_trans hknown hgrows, hgone⟩

/-! ## Runs -/

def Live (m : Machine) (number : Nat) : Prop := ∃ r, m.heap.lookup number = some r

/-- What a nested run leaves as it was. -/
structure Restores (table : Interrupt.Table) (others : List Machine) (m m' : Machine) : Prop where
  pools : m'.pools = m.pools
  lent : ∀ a ∈ m.pools.items, Address.offset a = 0 → ∀ length,
    m.heap.Lent (Address.region a) length → m'.heap.Lent (Address.region a) length
  live : ∀ number, (∀ o ∈ others, (left (step table) o).Live number ↔ o.Live number) →
    (m'.Live number ↔ m.Live number)

variable {others inner : List Machine} {m₁ m₂ : Machine}

theorem Restores.refl (table : Interrupt.Table) (m : Machine) : Restores table [] m m where
  pools := rfl
  lent _ _ _ _ hlent := hlent
  live _ _ := Iff.rfl

/-- A step that has nothing to do with pools, and does not give one back, can be put before. -/
theorem Restores.other (htable : table.IsStandard)
    (hother : ∀ op operand, m.Next op operand → op ≠ .mallocPool ∧ op ≠ .freePool)
    (hfrees : ∀ a ∈ m.pools.items, ¬m.Frees table a)
    (hrest : Restores table others (left (step table) m) m') :
    Restores table (m :: others) m m' := by
  have hpools : (left (step table) m).pools = m.pools := by
    refine pools_of_step htable fun op operand hnext hop => ?_
    rcases hop with rfl | rfl
    · exact absurd rfl (hother _ _ hnext).1
    · exact absurd rfl (hother _ _ hnext).2
  refine ⟨hrest.pools.trans hpools, ?_, ?_⟩
  · intro a ha hoffset length hlent
    have hstill : (left (step table) m).heap.Lent (Address.region a) length := by
      rcases lent_step htable hoffset hlent with hstill | hfree | ⟨operand, rest, hnext, -⟩
      · exact hstill
      · exact absurd hfree (hfrees a ha)
      · exact absurd rfl (hother _ _ hnext).2
    exact hrest.lent a (hpools.symm ▸ ha) hoffset length hstill
  · intro number hlive
    exact (hrest.live number fun o ho => hlive o (List.mem_cons_of_mem m ho)).trans
      (hlive m List.mem_cons_self)

end Machine
end StackMachine
