import StackMachine.Proofs.Limits
import StackMachine.Proofs.Segment

/-!
# ModuleMemory — loaded modules and their memory match

The module table and guest memory are kept apart, and only linking and unlinking change both. They
stay matched: every loaded module has its memory in guest memory, and every region that is the
memory of a module is that of one loaded module.

* `Machine.Matched` — the match, as every call keeps it;
* `Machine.matched_after` — it holds along every run on a loaded program;
* `Machine.ModulesMapped` — the match, as it is used;
* `Machine.module_memory_mapped` — the match and what follows from it: unlinking a loaded module
  cannot fail, guest code cannot free the memory of a module, and the addresses of that memory which
  are handed to guest code can be read.

Region numbers must not have run out, since a number that does not fit in an address names another
region.
-/

namespace StackMachine

/-- An offset inside a live region can be read. -/
theorem Heap.exists_read {h : Heap} {a : Word} {r : Region}
    (hlookup : h.lookup (Address.region a) = some r) (hinside : Address.offset a < r.bytes.size) :
    ∃ w, h.read a 1 = .ok w := by
  have hslice : ∃ bytes, h.slice a 1 = .ok bytes := by
    unfold slice
    rw [region?_eq_lookup, hlookup]
    exact ⟨_, if_pos hinside⟩
  rcases hslice with ⟨bytes, hslice⟩
  refine ⟨UInt64.ofNat bytes.toNatLE, ?_⟩
  have hwidth : ¬(1 : Word) > 8 := by decide
  have hone : (1 : Word).toNat = 1 := rfl
  rw [read, if_neg hwidth, hone, hslice]

/-- A number that fits in an address is that of a region other than the null address. -/
theorem Heap.Holds.base_ne_zero {h : Heap} {number length : Nat} (hholds : h.Holds number length)
    (hbound : h.regions.size ≤ Address.maxRegionLength) : Address.base number ≠ 0 := by
  intro hzero
  have hregion : Address.region (Address.base number) = number :=
    Address.region_base (Nat.le_trans hholds.le_size hbound)
  rw [hzero] at hregion
  rcases hholds with ⟨r, hlookup, -⟩
  rw [← hregion] at hlookup
  cases hlookup

/-- Memory that is not empty has an address that is not null. -/
theorem Segment.MappedIn.base_ne_zero {heap : Heap} {base : Word} {length : Nat}
    (h : (Segment.mapped base length).MappedIn heap) (hlength : 0 < length) : base ≠ 0 := by
  cases h with
  | empty => exact absurd hlength (Nat.lt_irrefl 0)
  | region hoffset hholds =>
    rintro rfl
    rcases hholds with ⟨r, hlookup, -⟩
    cases hlookup

namespace Machine

variable {table : Interrupt.Table} {m m' : Machine}

/-! ## The invariant -/

/-- Every loaded module has its memory in guest memory, no two of them in the same region, and every
region that is the memory of a module is that of a loaded one. -/
structure Matched (m : Machine) : Prop extends Segmented 0 m where
  claimed : ∀ {number length : Nat}, m.heap.Holds number length →
    ∃ (index : Nat) (module : Module), m.modules[index]? = some (some module) ∧
      module.memory = .mapped (Address.base number) length

/-- Guest code can neither take nor make the memory of a module. -/
theorem Matched.isLocal (hm : Matched m) (h : Local m m') : Matched m' where
  toSegmented := hm.toSegmented.isLocal h
  claimed hholds := by
    rw [h.modules]
    exact hm.claimed (h.heap.holds_before hholds)

theorem Matched.advanced (hm : Matched m) : Matched m.advanced :=
  ⟨hm.toSegmented.advanced, hm.claimed⟩

/-- Installing a module makes no region but the one where its memory is. -/
theorem holds_of_install {heap : Heap} {module : Module} (hfresh : module.Fresh)
    {number length : Nat} (h : (install heap module).2.Holds number length) :
    heap.Holds number length ∨
      (install heap module).1.memory = .mapped (Address.base number) length := by
  rcases install_cases heap hfresh with heq | ⟨bytes, -, heq⟩
  · rw [heq] at h
    exact .inl h
  · rw [heq] at h ⊢
    rcases h.of_insert with hbefore | ⟨hnumber, -, hlength⟩
    · exact .inl hbefore
    · subst hnumber
      rw [← hlength]
      exact .inr (by simp)

theorem Matched.links (hm : Matched m) {path : String} {index : Word}
    (h : Links path m index m') (hbound : m'.heap.regions.size ≤ Address.maxRegionLength) :
    Matched m' where
  toSegmented := hm.toSegmented.links h hbound
  claimed {number length} hholds := by
    cases h with
    | @intro module loader hroom hload =>
      -- an older region keeps its module, whose slot is before the new one
      rcases holds_of_install (Linker.fresh_of_load hload) hholds with hbefore | hnew
      · rcases hm.claimed hbefore with ⟨slot, found, hslot, hmemory⟩
        have hold : slot < m.modules.size := (Array.getElem?_eq_some_iff.1 hslot).1
        refine ⟨slot, found, ?_, hmemory⟩
        rw [Array.getElem?_push, if_neg (Nat.ne_of_lt hold)]
        exact hslot
      · exact ⟨m.modules.size, _, Array.getElem?_push_size, hnew⟩

theorem Matched.unlinks (hm : Matched m) {index : Word} (h : Unlinks index m m')
    (hbound : m'.heap.regions.size ≤ Address.maxRegionLength) : Matched m' where
  toSegmented := hm.toSegmented.unlinks (Nat.zero_le 1) h
  claimed {number length} hholds := by
    cases h with
    | @intro module heap hindex hmodule hunmap =>
      have hloaded : m.modules[index.toNat]? = some (some module) := module_ok_iff.1 hmodule
      have hregion : Address.region (Address.base number) = number :=
        Address.region_base (Nat.le_trans hholds.le_size hbound)
      -- the region is not that of the module which is gone, since that one is gone too
      have hbefore : m.heap.Holds number length ∧
          module.memory ≠ .mapped (Address.base number) length := by
        rcases Segment.unmapFrom_cases hunmap with ⟨hnone, rfl⟩ | ⟨base, n, hmemory, -, rfl⟩
        · refine ⟨hholds, fun heq => ?_⟩
          have hstarts : m.heap.starts (Address.base number) .module = true := by
            rcases hholds with ⟨r, hlookup, howner, -⟩
            exact Heap.starts_iff.2 ⟨r, by rw [hregion, hlookup], Address.offset_base _, howner⟩
          rw [hnone _ _ heq] at hstarts
          cases hstarts
        · rcases hholds.of_erase with ⟨hother, hbefore⟩
          refine ⟨hbefore, fun heq => ?_⟩
          rw [hmemory] at heq
          cases heq
          exact hother hregion.symm
      rcases hm.claimed hbefore.1 with ⟨slot, found, hslot, hmemory⟩
      have hother : index.toNat ≠ slot := by
        rintro rfl
        rw [hloaded] at hslot
        cases hslot
        exact hbefore.2 hmemory
      refine ⟨slot, found, ?_, hmemory⟩
      rw [Array.getElem?_setIfInBounds_ne hother]
      exact hslot

/-- Whatever a call does, modules and their memory stay matched. -/
theorem Matched.alters (hm : Matched m) (h : Alters m m')
    (hbound : m'.heap.regions.size ≤ Address.maxRegionLength) : Matched m' := by
  cases h with
  | locally hlocal => exact hm.isLocal hlocal
  | links hlinks hlocal =>
    exact (hm.links hlinks (Nat.le_trans hlocal.heap.size_le hbound)).isLocal hlocal
  | unlinks hunlinks hlocal =>
    exact (hm.unlinks hunlinks (Nat.le_trans hlocal.heap.size_le hbound)).isLocal hlocal
  | tears htears => exact absurd htears (hm.not_tears (Nat.zero_le 1))

/-! ## Runs -/

/-- At the start there is one module, and its memory is the only region. -/
theorem matched_start {module : Module} {loader : Loader} {capacities : Capacities} {host : Host}
    (hfresh : module.Fresh) (h : start module loader capacities host = .ok m) : Matched m := by
  rcases start_ok h with ⟨-, rfl⟩
  have honly {index : Nat} {found : Module}
      (hslot : #[some (install capacities.memory module).1][index]? = some (some found)) :
      index = 0 ∧ found = (install capacities.memory module).1 := by
    cases index with
    | zero =>
      cases hslot
      exact ⟨rfl, rfl⟩
    | succ index => cases hslot
  have hbound : (install capacities.memory module).2.regions.size ≤ Address.maxRegionLength := by
    rcases install_cases capacities.memory hfresh with heq | ⟨bytes, -, heq⟩
    · rw [heq]
      exact Nat.zero_le _
    · rw [heq, Heap.size_insert, Heap.next_of_nil rfl]
      show max 0 1 ≤ Address.maxRegionLength
      decide
  refine { mapped := ?_, apart := ?_, claimed := ?_ }
  · intro index found _ hslot
    rcases honly hslot with ⟨-, rfl⟩
    exact mappedIn_install hfresh hbound
  · intro i j a b base _ _ ha hb _ _
    exact .inr ((honly ha).1.trans (honly hb).1.symm)
  · intro number length hholds
    rcases holds_of_install hfresh hholds with ⟨r, hlookup, -⟩ | hmemory
    · cases number with
      | zero => cases hlookup
      | succ slot => simp [Heap.lookup, Capacities.memory] at hlookup
    · exact ⟨0, _, rfl, hmemory⟩

/-- Modules and their memory are matched along every run. -/
theorem matched_after (htable : table.IsStandard) (hm : Matched m) (calls : List Call)
    (hbound : (m.after table calls).heap.regions.size ≤ Address.maxRegionLength) :
    Matched (m.after table calls) :=
  after_induction_of_bound htable (fun _ h => h.advanced) (fun _ _ h => h.alters) hm calls hbound

/-! ## Consequences -/

/-- Loaded modules and the regions that are the memory of a module belong to each other. -/
structure ModulesMapped (m : Machine) : Prop where
  /-- The memory of a module is empty at the null address, or a region of its own. -/
  mapped : ∀ {index : Nat} {module : Module}, m.modules[index]? = some (some module) →
    module.memory.MappedIn m.heap
  /-- Different modules with memory have it at different addresses. -/
  apart : ∀ {i j : Nat} {a b : Module}, m.modules[i]? = some (some a) →
    m.modules[j]? = some (some b) → 0 < a.memory.length → 0 < b.memory.length →
    a.memory.base? = b.memory.base? → i = j
  /-- A region that is the memory of a module is that of exactly one. -/
  owned : ∀ {number : Nat} {r : Region}, m.heap.lookup number = some r → r.owner = .module →
    ∃! index : Nat, ∃ module, m.modules[index]? = some (some module) ∧
      module.memory = .mapped (Address.base number) r.bytes.size

/-- Where all is matched, modules and regions belong to each other. -/
theorem Matched.modulesMapped (hm : Matched m)
    (hbound : m.heap.regions.size ≤ Address.maxRegionLength) : ModulesMapped m where
  mapped hslot := hm.mapped (Nat.zero_le _) hslot
  apart {i j a b} ha hb hlength _ hbase := by
    have hmapped : a.memory.MappedIn m.heap := hm.mapped (Nat.zero_le _) ha
    cases hmemory : a.memory with
    | detached bytes =>
      rw [hmemory] at hmapped
      cases hmapped
    | mapped base length =>
      rw [hmemory] at hmapped hlength hbase
      have hsame : a.memory.base? = some base := by
        rw [hmemory]
        rfl
      rcases hm.apart (Nat.zero_le _) (Nat.zero_le _) ha hb hsame hbase.symm with hzero | heq
      · exact absurd hzero (hmapped.base_ne_zero hlength)
      · exact heq
  owned {number r} hlookup howner := by
    have hholds : m.heap.Holds number r.bytes.size := ⟨r, hlookup, howner, rfl⟩
    rcases hm.claimed hholds with ⟨index, module, hslot, hmemory⟩
    refine ⟨index, ⟨module, hslot, hmemory⟩, ?_⟩
    rintro other ⟨found, hfound, hsame⟩
    rcases hm.apart (Nat.zero_le _) (Nat.zero_le _) hfound hslot (congrArg Segment.base? hsame)
      (congrArg Segment.base? hmemory) with hzero | heq
    · exact absurd hzero (hholds.base_ne_zero hbound)
    · exact heq

/-- Unlinking refuses a slot that is not that of a linked module, and nothing else. -/
theorem Matched.unlink_error (hm : Matched m) {index : Word} {e : Fault}
    (h : unlink index m = .error e m') : e = .illegalLibraryIndex index ∧ m' = m := by
  by_cases hloaded : ∃ module, index ≠ 0 ∧ m.module index = .ok module
  · -- the memory of a loaded module is there to be unmapped, and handing it back cannot fail
    rcases hloaded with ⟨module, hindex, hmodule⟩
    have hmapped := hm.mapped (Nat.zero_le _) (module_ok_iff.1 hmodule)
    rcases hmapped.exists_unmapFrom with ⟨heap, hunmap⟩
    simp only [unlink_of_loaded hindex hmodule, hunmap, handBack_eq] at h
    cases h
  · rw [unlink_of_not_loaded hloaded] at h
    cases h
    exact ⟨rfl, rfl⟩

/-- An address in the memory of a module cannot be given back. -/
theorem release_of_holds {a : Word} {length : Nat} (h : m.heap.Holds (Address.region a) length) :
    m.heap.profile = .checked ∧ release a m = .error .illegalAccess m ∨
      m.heap.profile = .lenient ∧ release a m = .ok () m := by
  rcases h with ⟨r, hlookup, howner, -⟩
  have hnull : a ≠ 0 := by
    rintro rfl
    cases hlookup
  refine release_of_unmatched hnull (Bool.eq_false_iff.2 fun hstarts => ?_)
  rcases Heap.starts_iff.1 hstarts with ⟨found, hfound, -, hother⟩
  rw [hlookup] at hfound
  cases hfound
  rw [howner] at hother
  cases hother

/-- The memory of a module stays where it is for as long as the module is loaded. -/
theorem Matched.keeps (hm : Matched m) (h : Alters m m') {index : Nat} {module : Module}
    (hbefore : m.modules[index]? = some (some module))
    (hafter : m'.modules[index]? = some (some module)) : module.memory.MappedIn m'.heap := by
  have hmapped : module.memory.MappedIn m.heap := hm.mapped (Nat.zero_le _) hbefore
  cases h with
  | locally hlocal => exact hmapped.imp fun _ _ => hlocal.heap.holds
  | links hlinks hlocal =>
    cases hlinks with
    | intro hroom hload =>
      have hinstalled := hmapped.imp fun _ _ => holds_install (Linker.fresh_of_load hload)
      exact hinstalled.imp fun _ _ => hlocal.heap.holds
  | unlinks hunlinks hlocal =>
    rw [hlocal.modules] at hafter
    have hsegmented := hm.toSegmented.unlinks (Nat.zero_le 1) hunlinks
    exact (hsegmented.mapped (Nat.zero_le _) hafter).imp fun _ _ => hlocal.heap.holds
  | tears htears => exact absurd htears (hm.not_tears (Nat.zero_le 1))

/-- A module that stays loaded keeps its memory. -/
theorem Matched.keeps_call (htable : table.IsStandard) (hm : Matched m) (call : Call) {index : Nat}
    {module : Module} (hbefore : m.modules[index]? = some (some module))
    (hafter : (call.apply table m).modules[index]? = some (some module)) :
    module.memory.MappedIn (call.apply table m).heap := by
  rcases call_cases htable call m with h | ⟨-, h⟩
  · exact hm.keeps h hbefore hafter
  · exact hm.advanced.keeps h hbefore hafter

/-- The address that an instruction gives for the memory of its module can be read. -/
theorem Matched.loadMemory (hm : Matched m) (hbounded : m.heap.Bounded) {operand : Word}
    (h : Performs operand m .loadMemory m') :
    ∃ a w, m'.stack.items = a :: m.stack.items ∧ m'.heap.read a 1 = .ok w := by
  cases h with
  | @loadMemory module base hmodule hoffset hbase =>
    have hmapped := hm.mapped (Nat.zero_le _) (module_ok_iff.1 hmodule)
    cases hmemory : module.memory with
    | detached bytes =>
      rw [hmemory] at hmapped
      cases hmapped
    | mapped start length =>
      rw [hmemory] at hmapped hoffset hbase
      cases hbase
      cases hmapped with
      | empty => cases hoffset
      | region hstart hholds =>
        -- the offset is below the length of the region, so that the sum stays in the region
        rcases hholds with ⟨r, hlookup, -, rfl⟩
        have hfits : operand.toNat ≤ Address.maxRegionLength :=
          Nat.le_trans (Nat.le_of_lt hoffset) (hbounded _ r hlookup)
        rcases Address.region_add hstart hfits with ⟨hregion, hinside⟩
        rw [← hregion] at hlookup
        rcases Heap.exists_read hlookup (by rw [hinside]; exact hoffset) with ⟨w, hread⟩
        exact ⟨base + operand, w, rfl, hread⟩

/-- In every machine that a run on a loaded program can reach, loaded modules and the regions that
are the memory of a module belong to each other. So unlinking fails only where no linked module is,
giving back an address in the memory of a module changes nothing, no call takes away the memory of a
module that stays loaded, and an instruction that pushes an address of the memory of its module
pushes one that can be read. Region numbers must not have run out. -/
theorem module_memory_mapped {blank module : Module} {image : Bytes} {header : Header}
    {loader : Loader} {capacities : Capacities} {host : Host} {first : Machine}
    (hload : Load.into blank image = (.ok header, module))
    (hstart : start module loader capacities host = .ok first) {table : Interrupt.Table}
    (htable : table.IsStandard) (calls : List Call) (m : Machine)
    (hm : m = first.after table calls)
    (hregions : m.heap.regions.size ≤ Address.maxRegionLength) :
    ModulesMapped m ∧
      (∀ index e m', unlink index m = .error e m' → e = .illegalLibraryIndex index ∧ m' = m) ∧
      (∀ (index : Nat) (owner : Module), m.modules[index]? = some (some owner) →
        (∀ base length a, owner.memory = .mapped base length → 0 < length →
          Address.region a = Address.region base →
          m.heap.profile = .checked ∧ release a m = .error .illegalAccess m ∨
            m.heap.profile = .lenient ∧ release a m = .ok () m) ∧
        ∀ call : Call, (call.apply table m).modules[index]? = some (some owner) →
          owner.memory.MappedIn (call.apply table m).heap) ∧
      (∀ i m', fetch m = .ok i m → Opcode.ofByte? i.opcode = some .loadMemory →
        step table m = .ok () m' →
        ∃ a w, m'.stack.items = a :: m.stack.items ∧ m'.heap.read a 1 = .ok w) := by
  have hfresh : module.Fresh := Load.fresh_of_into hload
  have hmatched : Matched m := by
    subst hm
    exact matched_after htable (matched_start hfresh hstart) calls hregions
  have hbounded : m.heap.Bounded := by
    subst hm
    have hsound : Sound capacities (first.after table calls) :=
      after_induction (fun _ call h => h.call htable call) (sound_start hfresh hstart) calls
    exact hsound.regions
  refine ⟨hmatched.modulesMapped hregions, fun _ _ _ => hmatched.unlink_error, ?_, ?_⟩
  · intro index owner hslot
    refine ⟨?_, fun call => hmatched.keeps_call htable call hslot⟩
    intro base length a hmemory hlength ha
    have hmapped := hmatched.mapped (Nat.zero_le _) hslot
    rw [hmemory] at hmapped
    cases hmapped with
    | empty => exact absurd hlength (Nat.lt_irrefl 0)
    | region hoffset hholds =>
      rw [← ha] at hholds
      exact release_of_holds hholds
  · intro i m' hfetch hop hstep
    rw [step_of_fetch hfetch hop] at hstep
    have hint : Opcode.loadMemory ≠ .int := by decide
    exact hmatched.advanced.loadMemory hbounded (performs_of_ok hint hstep)

/-- A program with two bytes of memory links a library with one. The memory of the library can not
be given back, is there after the next step, and goes with the library; the program gets the address
of its own second byte. -/
theorem module_memory_mapped_tiny :
    let image : Image :=
      { flags := .executable, instructions := #[.of .loadMemory 1], memory := [5, 6] }
    let library : Image := { flags := .library, instructions := #[.of .ret 0], memory := [7] }
    let loader : Loader := .registry [("library", some library.encode)]
    ∃ (module owner : Module) (first m m' : Machine),
      Load.into {} image.encode = (.ok image.header, module) ∧
        start module loader {} {} = .ok first ∧
        m = first.after Interrupt.standard [.link "library"] ∧
        m.heap.regions.size ≤ Address.maxRegionLength ∧ ModulesMapped m ∧
        m.modules[1]? = some (some owner) ∧ owner.memory = .mapped (Address.base 2) 1 ∧
        release (Address.base 2) m = .error .illegalAccess m ∧
        owner.memory.MappedIn (Call.step.apply Interrupt.standard m).heap ∧
        step Interrupt.standard m = .ok () m' ∧
        (∃ a w, m'.stack.items = a :: m.stack.items ∧ m'.heap.read a 1 = .ok w) ∧
        ModulesMapped (m.after Interrupt.standard [.unlink 1]) ∧
        (m.after Interrupt.standard [.unlink 1]).heap.lookup 2 = none := by
  intro image library loader
  have hload : Load.into {} image.encode = (.ok image.header, ({} : Module).holding image) :=
    Load.into_encode ⟨by decide, by decide, by decide⟩ ⟨by decide, by decide, by decide⟩ (by decide)
  have hrun : ∃ (owner : Module) (first m m' : Machine) (i : Instruction),
      start (({} : Module).holding image) loader {} {} = .ok first ∧
        m = first.after Interrupt.standard [.link "library"] ∧
        m.modules[1]? = some (some owner) ∧ owner.memory = .mapped (Address.base 2) 1 ∧
        (Call.step.apply Interrupt.standard m).modules[1]? = some (some owner) ∧
        m.heap.profile = .checked ∧ m.heap.regions.size = 2 ∧ fetch m = .ok i m ∧
        Opcode.ofByte? i.opcode = some .loadMemory ∧ step Interrupt.standard m = .ok () m' ∧
        (m.after Interrupt.standard [.unlink 1]).heap.regions.size = 2 ∧
        (m.after Interrupt.standard [.unlink 1]).heap.lookup 2 = none := by
    dsimp only [image, library, loader]
    set_option maxRecDepth 3000 in
    exact ⟨_, _, _, _, _, rfl, rfl, rfl, rfl, rfl, rfl, rfl, rfl, rfl, rfl, rfl, rfl⟩
  rcases hrun with ⟨owner, first, m, m', i, hstart, hm, hslot, hmemory, hslot', hprofile, hsize,
    hfetch, hop, hstep, hsize', hgone⟩
  have hsmall : 2 ≤ Address.maxRegionLength := by decide
  rcases module_memory_mapped hload hstart Interrupt.isStandard_standard [.link "library"] m hm
    (hsize ▸ hsmall) with ⟨hmapped, -, howners, hread⟩
  rcases module_memory_mapped hload hstart Interrupt.isStandard_standard
    [.link "library", .unlink 1] (m.after Interrupt.standard [.unlink 1]) (by rw [hm]; rfl)
    (hsize' ▸ hsmall) with ⟨hmapped', -⟩
  have hrelease : release (Address.base 2) m = .error .illegalAccess m := by
    rcases (howners 1 owner hslot).1 _ _ _ hmemory Nat.one_pos rfl with
      ⟨-, hfault⟩ | ⟨hlenient, -⟩
    · exact hfault
    · rw [hprofile] at hlenient
      cases hlenient
  exact ⟨_, owner, first, m, m', hload, hstart, hm, hsize ▸ hsmall, hmapped, hslot, hmemory,
    hrelease, (howners 1 owner hslot).2 .step hslot', hstep, hread i m' hfetch hop hstep, hmapped',
    hgone⟩

end Machine
end StackMachine
