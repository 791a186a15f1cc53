import StackMachine.Proofs.Run

/-!
# Segment — the memory of linked modules

As long as region numbers fit in an address, every linked module has its memory in guest memory, in
a region that no other module has. Guest code cannot take it away, so that unlinking never finds it
missing.

* `Segment.MappedIn` — the memory of one module is in guest memory;
* `Machine.Segmented` — so is the memory of all modules from a slot on, in different regions;
* `Machine.segmented_after` — this holds along every run.
-/

namespace StackMachine
namespace Segment

/-- The memory is in guest memory: empty at the null address, or a region of its own. -/
inductive MappedIn (heap : Heap) : Segment → Prop
  | empty : MappedIn heap (.mapped 0 0)
  | region {base : Word} {length : Nat} (hoffset : Address.offset base = 0)
      (hholds : heap.Holds (Address.region base) length) : MappedIn heap (.mapped base length)

variable {s : Segment} {heap heap' : Heap}

/-- Memory stays mapped as long as its region stays. -/
theorem MappedIn.imp (h : s.MappedIn heap)
    (hkeeps : ∀ number length, heap.Holds number length → heap'.Holds number length) :
    s.MappedIn heap' := by
  cases h with
  | empty => exact .empty
  | region hoffset hholds => exact .region hoffset (hkeeps _ _ hholds)

/-- Memory that is in guest memory can be unmapped. -/
theorem MappedIn.exists_unmapFrom (h : s.MappedIn heap) :
    ∃ heap', s.unmapFrom heap = .ok heap' := by
  cases h with
  | empty => exact ⟨heap, rfl⟩
  | @region base length hoffset hholds =>
    rcases hholds with ⟨r, hlookup, howner, -⟩
    have hstarts : heap.starts base .module = true :=
      Heap.starts_iff.2 ⟨r, hlookup, hoffset, howner⟩
    have hunmap : heap.unmap base = .ok (some r.bytes.toList, heap.erase base) :=
      Heap.unmap_ok_iff.2 (.inl ⟨r, hlookup, hstarts, rfl, rfl⟩)
    rw [unmapFrom, hunmap]
    by_cases hbase : base = 0
    · exact ⟨heap, if_pos hbase⟩
    · exact ⟨heap.erase base, if_neg hbase⟩

/-- An address where memory is mapped is null or the first one of a region. -/
theorem MappedIn.base_cases (h : s.MappedIn heap) {base : Word} (hbase : s.base? = some base) :
    base = 0 ∨
      Address.offset base = 0 ∧ ∃ length, heap.Holds (Address.region base) length := by
  cases h with
  | empty =>
    cases hbase
    exact .inl rfl
  | region hoffset hholds =>
    cases hbase
    exact .inr ⟨hoffset, _, hholds⟩

end Segment

namespace Machine

variable {table : Interrupt.Table} {first : Nat} {m m' : Machine}

/-! ## The invariant -/

/-- From slot `first` on, every loaded module has its memory in guest memory, and no two of them in
the same region. -/
structure Segmented (first : Nat) (m : Machine) : Prop where
  mapped : ∀ {index : Nat} {module : Module}, first ≤ index →
    m.modules[index]? = some (some module) → module.memory.MappedIn m.heap
  apart : ∀ {i j : Nat} {a b : Module} {base : Word}, first ≤ i → first ≤ j →
    m.modules[i]? = some (some a) → m.modules[j]? = some (some b) →
    a.memory.base? = some base → b.memory.base? = some base → base = 0 ∨ i = j

/-- A local change leaves the memory of modules where it is. -/
theorem Segmented.isLocal (hm : Segmented first m) (h : Local m m') : Segmented first m' where
  mapped hfirst hslot := by
    rw [h.modules] at hslot
    exact (hm.mapped hfirst hslot).imp fun _ _ hholds => h.heap.holds hholds
  apart hi hj ha hb := by
    rw [h.modules] at ha hb
    exact hm.apart hi hj ha hb

theorem Segmented.advanced (hm : Segmented first m) : Segmented first m.advanced :=
  ⟨hm.mapped, hm.apart⟩

/-- Installing a module leaves the memory of others. -/
theorem holds_install {heap : Heap} {module : Module} (hfresh : module.Fresh) {number length : Nat}
    (hholds : heap.Holds number length) : (install heap module).2.Holds number length := by
  rcases install_cases heap hfresh with heq | ⟨bytes, -, heq⟩
  · rw [heq]
    exact hholds
  · rw [heq]
    exact hholds.insert _

theorem size_install {heap : Heap} {module : Module} (hfresh : module.Fresh) :
    heap.regions.size ≤ (install heap module).2.regions.size := by
  rcases install_cases heap hfresh with heq | ⟨bytes, -, heq⟩
  · exact Nat.le_of_eq (by rw [heq])
  · rw [heq, Heap.size_insert]
    exact Nat.le_max_left _ _

/-- A module that is installed has its memory in guest memory. -/
theorem mappedIn_install {heap : Heap} {module : Module} (hfresh : module.Fresh)
    (hbound : (install heap module).2.regions.size ≤ Address.maxRegionLength) :
    (install heap module).1.memory.MappedIn (install heap module).2 := by
  rcases install_cases heap hfresh with heq | ⟨bytes, -, heq⟩
  · rw [heq]
    exact .empty
  · rw [heq] at hbound ⊢
    rw [Heap.size_insert] at hbound
    refine .region (Address.offset_base _) ⟨⟨.module, bytes.toArray⟩, ?_, rfl, rfl⟩
    rw [Address.region_base (Nat.max_le.1 hbound).2, Heap.lookup_insert, if_pos rfl]

/-- The memory of a new module is not where that of an older one is. -/
theorem base_install_ne {heap : Heap} {module : Module} (hfresh : module.Fresh) {s : Segment}
    (hs : s.MappedIn heap) {base : Word}
    (hbound : (install heap module).2.regions.size ≤ Address.maxRegionLength)
    (hnew : (install heap module).1.memory.base? = some base) (hold : s.base? = some base) :
    base = 0 := by
  rcases install_cases heap hfresh with heq | ⟨bytes, -, heq⟩
  · rw [heq] at hnew
    cases hnew
    rfl
  · rw [heq] at hnew hbound
    rw [Heap.size_insert] at hbound
    cases hnew
    rcases hs.base_cases hold with hzero | ⟨-, length, r, hlookup, -⟩
    · exact hzero
    · -- the new region has a number that no live region has
      rw [Address.region_base (Nat.max_le.1 hbound).2] at hlookup
      exact absurd rfl (Heap.ne_next hlookup)

theorem Segmented.links (hm : Segmented first m) {path : String} {index : Word}
    (h : Links path m index m') (hbound : m'.heap.regions.size ≤ Address.maxRegionLength) :
    Segmented first m' := by
  cases h with
  | @intro module loader hroom hload =>
    have hfresh : module.Fresh := Linker.fresh_of_load hload
    constructor
    · intro slot found hfirst hslot
      rw [Array.getElem?_push] at hslot
      split at hslot
      · cases hslot
        exact mappedIn_install hfresh hbound
      · exact (hm.mapped hfirst hslot).imp fun _ _ => holds_install hfresh
    · intro i j a b base hi hj ha hb hbase hbase'
      rw [Array.getElem?_push] at ha hb
      -- two older modules are apart already, and a new one is in a region of its own
      split at ha
      next hinew =>
        cases ha
        split at hb
        next hjnew => exact .inr (hinew.trans hjnew.symm)
        next => exact .inl (base_install_ne hfresh (hm.mapped hj hb) hbound hbase hbase')
      next =>
        split at hb
        next =>
          cases hb
          exact .inl (base_install_ne hfresh (hm.mapped hi ha) hbound hbase' hbase)
        next => exact hm.apart hi hj ha hb hbase hbase'

theorem Segmented.unlinks (hfirst : first ≤ 1) (hm : Segmented first m) {index : Word}
    (h : Unlinks index m m') : Segmented first m' := by
  cases h with
  | @intro module heap hindex hmodule hunmap =>
    have hloaded : m.modules[index.toNat]? = some (some module) := module_ok_iff.1 hmodule
    have hpos : index.toNat ≠ 0 := toNat_ne_zero hindex
    constructor
    · intro slot found hslotFirst hslot
      rcases loaded_of_emptied hslot with ⟨hother, hbefore⟩
      have hmapped : found.memory.MappedIn m.heap := hm.mapped hslotFirst hbefore
      rcases Segment.unmapFrom_cases hunmap with ⟨-, rfl⟩ | ⟨base, length, hmemory, hstarts, rfl⟩
      · exact hmapped
      · cases hfound : found.memory with
        | detached bytes =>
          rw [hfound] at hmapped
          cases hmapped
        | mapped base' length' =>
          rw [hfound] at hmapped
          cases hmapped with
          | empty => exact .empty
          | region hoffset hholds =>
            refine .region hoffset (hholds.erase ?_)
            intro hsame
            -- two modules in one region would be one module
            rcases Heap.starts_iff.1 hstarts with ⟨r, -, hoffset', -⟩
            rcases Address.eq_of_region_eq hoffset hoffset' hsame with rfl
            rcases hm.apart hslotFirst (by omega) hbefore hloaded (by rw [hfound]; rfl)
              (by rw [hmemory]; rfl) with rfl | heq
            · cases hstarts
            · exact hother heq
    · intro i j a b base hi hj ha hb
      exact hm.apart hi hj (loaded_of_emptied ha).2 (loaded_of_emptied hb).2

/-- The memory of a linked module is where it belongs, so that unlinking does not stop half way. -/
theorem Segmented.not_tears (hfirst : first ≤ 1) (hm : Segmented first m) {index : Word} :
    ¬Tears index m m' := by
  intro h
  cases h with
  | intro hindex hmodule hunmap =>
    have hpos : index.toNat ≠ 0 := toNat_ne_zero hindex
    have hmapped := hm.mapped (by omega) (module_ok_iff.1 hmodule)
    rcases hmapped.exists_unmapFrom with ⟨heap, hok⟩
    rw [hok] at hunmap
    cases hunmap

/-! ## Runs -/

theorem size_unmapFrom {s : Segment} {heap heap' : Heap} (h : s.unmapFrom heap = .ok heap') :
    heap'.regions.size = heap.regions.size := by
  rcases Segment.unmapFrom_cases h with ⟨-, rfl⟩ | ⟨base, length, -, -, rfl⟩
  · rfl
  · exact Heap.size_erase _ _

/-- Regions are never forgotten, so that their number only grows. -/
theorem Alters.regions_le (h : Alters m m') : m.heap.regions.size ≤ m'.heap.regions.size := by
  cases h with
  | locally hlocal => exact hlocal.heap.size_le
  | links hlinks hlocal =>
    refine Nat.le_trans ?_ hlocal.heap.size_le
    cases hlinks with
    | intro hroom hload => exact size_install (Linker.fresh_of_load hload)
  | unlinks hunlinks hlocal =>
    refine Nat.le_trans ?_ hlocal.heap.size_le
    cases hunlinks with
    | intro hindex hmodule hunmap => exact Nat.le_of_eq (size_unmapFrom hunmap).symm
  | tears htears =>
    cases htears
    exact Nat.le_refl _

/-- Whatever a call does, the modules keep their memory. -/
theorem Segmented.alters (hfirst : first ≤ 1) (hm : Segmented first m) (h : Alters m m')
    (hbound : m'.heap.regions.size ≤ Address.maxRegionLength) : Segmented first m' := by
  cases h with
  | locally hlocal => exact hm.isLocal hlocal
  | links hlinks hlocal =>
    exact (hm.links hlinks (Nat.le_trans hlocal.heap.size_le hbound)).isLocal hlocal
  | unlinks hunlinks hlocal => exact (hm.unlinks hfirst hunlinks).isLocal hlocal
  | tears htears => exact absurd htears (hm.not_tears hfirst)

/-- At the start no library is linked, whatever the program is. -/
theorem segmented_start {module : Module} {loader : Loader} {capacities : Capacities}
    {host : Host} (h : start module loader capacities host = .ok m) : Segmented 1 m := by
  rcases start_ok h with ⟨-, rfl⟩
  have hnone {index : Nat} {found : Module} (hindex : 1 ≤ index)
      (hslot : #[some (install capacities.memory module).1][index]? = some (some found)) :
      False := by
    cases index with
    | zero => cases hindex
    | succ index => cases hslot
  exact ⟨fun hindex hslot => (hnone hindex hslot).elim,
    fun hi _ ha _ _ _ => (hnone hi ha).elim⟩

/-- No call gives up a place. -/
theorem regions_le_call (htable : table.IsStandard) (call : Call) :
    m.heap.regions.size ≤ (call.apply table m).heap.regions.size := by
  rcases call_cases htable call m with halters | ⟨-, halters⟩
  · exact halters.regions_le
  · exact halters.regions_le

/-- What every change keeps as long as region numbers fit in an address is kept along every run. The
bound is on the last machine only, since regions are never forgotten on the way to it. -/
theorem after_induction_of_bound (htable : table.IsStandard) {P : Machine → Prop}
    (hadvanced : ∀ m, P m → P m.advanced)
    (halters : ∀ m m', P m → Alters m m' → m'.heap.regions.size ≤ Address.maxRegionLength → P m')
    (hm : P m) (calls : List Call)
    (hbound : (m.after table calls).heap.regions.size ≤ Address.maxRegionLength) :
    P (m.after table calls) := by
  refine after_induction (P := fun m => m.heap.regions.size ≤ Address.maxRegionLength → P m) ?_
    (fun _ => hm) calls hbound
  intro m call hm hbound
  have hbefore : P m := hm (Nat.le_trans (regions_le_call htable call) hbound)
  rcases call_cases htable call m with h | ⟨-, h⟩
  · exact halters _ _ hbefore h hbound
  · exact halters _ _ (hadvanced m hbefore) h hbound

/-- A call leaves every module its memory. -/
theorem Segmented.call (htable : table.IsStandard) (hfirst : first ≤ 1) (hm : Segmented first m)
    (call : Call)
    (hbound : (call.apply table m).heap.regions.size ≤ Address.maxRegionLength) :
    Segmented first (call.apply table m) := by
  rcases call_cases htable call m with h | ⟨-, h⟩
  · exact hm.alters hfirst h hbound
  · exact hm.advanced.alters hfirst h hbound

/-- Every module has its memory along every run. -/
theorem segmented_after (htable : table.IsStandard) (hfirst : first ≤ 1) (hm : Segmented first m)
    (calls : List Call)
    (hbound : (m.after table calls).heap.regions.size ≤ Address.maxRegionLength) :
    Segmented first (m.after table calls) :=
  after_induction_of_bound htable (fun _ h => h.advanced) (fun _ _ h => h.alters hfirst) hm calls
    hbound

end Machine
end StackMachine
