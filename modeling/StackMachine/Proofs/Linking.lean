import StackMachine.Proofs.Action
import StackMachine.Proofs.Loading

/-!
# Linking — how the module table changes

Only linking and unlinking change the module table of a machine.

* `Machine.Links` — linking appends a slot and maps the memory of the new module;
* `Machine.Unlinks` — unlinking empties a slot and unmaps the memory of its module;
* `Machine.Tears` — unlinking faults after it has emptied the slot, since the memory of the module
  cannot be unmapped.

Every other fault of the two leaves the guest as it was. What mapping and unmapping do to guest
memory is told by `Machine.install_cases` and `Segment.unmapFrom_cases`.
-/

namespace StackMachine

def Segment.unmapFrom (heap : Heap) : Segment → Except Fault Heap
  | .detached _ => .ok heap
  | .mapped base _ => if base = 0 then .ok heap else (heap.unmap base).map Prod.snd

/-- Unmapping takes out the region of the module. It changes nothing if there is no such region. -/
theorem Segment.unmapFrom_cases {s : Segment} {heap heap' : Heap}
    (h : s.unmapFrom heap = .ok heap') :
    (∀ base length, s = .mapped base length → heap.starts base .module = false) ∧ heap' = heap ∨
      ∃ base length, s = .mapped base length ∧ heap.starts base .module = true ∧
        heap' = heap.erase base := by
  cases s with
  | detached bytes =>
    cases h
    refine .inl ⟨fun base length heq => ?_, rfl⟩
    cases heq
  | mapped base length =>
    rw [unmapFrom] at h
    by_cases hbase : base = 0
    · rw [if_pos hbase] at h
      cases h
      refine .inl ⟨fun base' length' heq => ?_, rfl⟩
      cases heq
      rw [hbase]
      rfl
    · rw [if_neg hbase] at h
      cases hunmap : heap.unmap base with
      | error e =>
        rw [hunmap] at h
        cases h
      | ok p =>
        rw [hunmap] at h
        cases h
        rcases Heap.unmap_ok_iff.1 hunmap with ⟨r, -, hstarts, -, hheap⟩ | ⟨-, hstarts, -, hheap⟩
        · exact .inr ⟨base, length, rfl, hstarts, hheap⟩
        · refine .inl ⟨fun base' length' heq => ?_, hheap⟩
          cases heq
          exact hstarts

/-- A library that was loaded is fresh. -/
theorem Linker.fresh_of_load {path : String} {l l' : Loader} {module : Module}
    (hload : Linker.load path l = .ok module l') : module.Fresh := by
  unfold Linker.load at hload
  split at hload
  next => cases hload
  next image hanswer =>
    cases image with
    | none => cases hload
    | some bytes =>
      dsimp only at hload
      split at hload
      next loaded hlibrary =>
        cases hload
        have hfresh := Load.fresh_of_libraryInto hlibrary
        exact ⟨hfresh.memory, hfresh.instructions⟩
      next => cases hload

/-- What the journal says when a module is handed back. -/
def Module.farewell (module : Module) : Notice :=
  match module.handle with
  | some handle => .unlinked handle.path
  | none => .unlinkedNothing

namespace Machine

variable {m m' : Machine}

/-! ## Linking -/

/-- A module is installed as it is, with empty memory at the null address, or in a new region. -/
theorem install_cases (heap : Heap) {module : Module} (hfresh : module.Fresh) :
    install heap module = ({ module with memory := .mapped 0 0 }, heap) ∨
      ∃ bytes : Bytes, bytes.length ≤ Address.maxRegionLength ∧
        install heap module =
          ({ module with memory := .mapped (Address.base heap.next) bytes.length },
            (heap.insert ⟨.module, bytes.toArray⟩).2) := by
  rcases hfresh.memory with ⟨bytes, hmemory, hfits⟩
  unfold install
  rw [hmemory]
  cases bytes with
  | nil => exact .inl rfl
  | cons b bs => exact .inr ⟨b :: bs, hfits, rfl⟩

/-- The new module gets the next slot, if there is one left. -/
inductive Links (path : String) (m : Machine) : Word → Machine → Prop
  | intro {module loader} (hroom : m.modules.size < m.moduleCapacity.toNat)
      (hload : Linker.load path m.loader = .ok module loader) :
      Links path m (UInt64.ofNat m.modules.size)
        { m with
          loader
          heap := (install m.heap module).2
          modules := m.modules.push (some (install m.heap module).1)
          journal := (m.journal.push
            (.linked path module.instructions.size module.symbols.size)).push
              (.indexed path m.modules.size) }

theorem Links.stack_eq {path : String} {index : Word} (h : Links path m index m') :
    m'.stack = m.stack := by
  cases h
  rfl

/-- Linking checks for a slot first, then asks the loader, and cannot fail after that. -/
theorem link_eq (path : String) (m : Machine) :
    link path m =
      if m.moduleCapacity.toNat ≤ m.modules.size then .error .libraryOverflow m
      else match Linker.load path m.loader with
        | .error e loader => .error (.link e) { m with loader }
        | .ok module loader =>
          .ok (UInt64.ofNat m.modules.size)
            { m with
              loader
              heap := (install m.heap module).2
              modules := m.modules.push (some (install m.heap module).1)
              journal := (m.journal.push
                (.linked path module.instructions.size module.symbols.size)).push
                  (.indexed path m.modules.size) } := by
  simp only [link, get_bind]
  split
  · rfl
  · cases Linker.load path m.loader with
    | error e loader => rfl
    | ok module loader => rfl

/-- What linking has done when it succeeds. -/
theorem links_of_ok {path : String} {index : Word} (h : link path m = .ok index m') :
    Links path m index m' := by
  rw [link_eq] at h
  split at h
  next => cases h
  next hroom =>
    split at h
    next => cases h
    next module loader hload =>
      cases h
      exact .intro (Nat.not_le.1 hroom) hload

/-- Linking that fails leaves the guest as it was. -/
theorem clean_link (path : String) : Clean (link path) m := by
  intro e m' he
  rw [link_eq] at he
  split at he
  next =>
    cases he
    exact .refl m
  next =>
    split at he
    next fault loader _ =>
      cases he
      exact ⟨m.host, loader, m.journal, rfl⟩
    next => cases he

/-! ## Unlinking -/

theorem toNat_ne_zero {index : Word} (h : index ≠ 0) : index.toNat ≠ 0 := by
  intro hzero
  exact h (UInt64.toNat_inj.1 hzero)

/-- The slot of the module is emptied and its memory unmapped. -/
inductive Unlinks (index : Word) (m : Machine) : Machine → Prop
  | intro {module heap} (hindex : index ≠ 0) (hmodule : m.module index = .ok module)
      (hunmap : module.memory.unmapFrom m.heap = .ok heap) :
      Unlinks index m
        { m with
          modules := m.modules.setIfInBounds index.toNat none
          heap
          journal := m.journal.push module.farewell
          loader := Linker.unload m.loader module }

theorem Unlinks.stack_eq {index : Word} (h : Unlinks index m m') : m'.stack = m.stack := by
  cases h
  rfl

/-- The slot of the module is emptied, but its memory cannot be unmapped. -/
inductive Tears (index : Word) (m : Machine) : Machine → Prop
  | intro {module fault} (hindex : index ≠ 0) (hmodule : m.module index = .ok module)
      (hunmap : module.memory.unmapFrom m.heap = .error fault) :
      Tears index m { m with modules := m.modules.setIfInBounds index.toNat none }

/-- Handing a module back goes to the loader and the journal, and cannot fail. -/
theorem handBack_eq (module : Module) :
    handBack module m = .ok ()
      { m with
        journal := m.journal.push module.farewell
        loader := Linker.unload m.loader module } := by
  unfold handBack Module.farewell
  cases module.handle with
  | some handle => rfl
  | none => rfl

/-- Unlinking a module that is loaded empties its slot first and unmaps its memory then. -/
theorem unlink_of_loaded {index : Word} {module : Module} (hindex : index ≠ 0)
    (hmodule : m.module index = .ok module) :
    unlink index m =
      match module.memory.unmapFrom m.heap with
      | .ok heap =>
        handBack module
          { m with modules := m.modules.setIfInBounds index.toNat none, heap }
      | .error e => .error e { m with modules := m.modules.setIfInBounds index.toNat none } := by
  simp only [unlink, if_neg hindex, get_bind, hmodule]
  cases module.memory with
  | detached bytes => rfl
  | mapped base length =>
    by_cases hbase : base = 0
    · simp only [hbase, Segment.unmapFrom, ne_eq, not_true, if_false, if_true]
      rfl
    · cases hunmap : m.heap.unmap base with
      | ok p =>
        simp only [hbase, hunmap, Segment.unmapFrom, ne_eq, not_false_eq_true, if_false, if_true]
        rfl
      | error e =>
        simp only [hbase, hunmap, Segment.unmapFrom, ne_eq, not_false_eq_true, if_false, if_true]
        rfl

/-- A module that is not loaded is refused with its index. -/
theorem eq_of_module_error {index : Word} {e : Fault} (h : m.module index = .error e) :
    e = .illegalLibraryIndex index := by
  unfold Machine.module at h
  split at h
  · cases h
  · cases h
    rfl

/-- What is not loaded, or is the program itself, is not unlinked. -/
theorem unlink_of_not_loaded {index : Word}
    (h : ¬∃ module, index ≠ 0 ∧ m.module index = .ok module) :
    unlink index m = .error (.illegalLibraryIndex index) m := by
  by_cases hindex : index = 0
  · simp only [unlink, if_pos hindex]
    rfl
  · cases hmodule : m.module index with
    | ok module => exact absurd ⟨module, hindex, hmodule⟩ h
    | error e =>
      simp only [unlink, if_neg hindex, get_bind, hmodule]
      rw [eq_of_module_error hmodule]
      rfl

/-- What unlinking has done when it succeeds. -/
theorem unlinks_of_ok {index : Word} {u : Unit} (h : unlink index m = .ok u m') :
    Unlinks index m m' := by
  by_cases hloaded : ∃ module, index ≠ 0 ∧ m.module index = .ok module
  · rcases hloaded with ⟨module, hindex, hmodule⟩
    rw [unlink_of_loaded hindex hmodule] at h
    split at h
    next heap hunmap =>
      rw [handBack_eq] at h
      cases h
      exact .intro hindex hmodule hunmap
    next => cases h
  · rw [unlink_of_not_loaded hloaded] at h
    cases h

/-- Unlinking that fails leaves the machine as it was, or stops half way. -/
theorem unlink_error {index : Word} {e : Fault} (h : unlink index m = .error e m') :
    m' = m ∨ Tears index m m' := by
  by_cases hloaded : ∃ module, index ≠ 0 ∧ m.module index = .ok module
  · rcases hloaded with ⟨module, hindex, hmodule⟩
    rw [unlink_of_loaded hindex hmodule] at h
    split at h
    next =>
      rw [handBack_eq] at h
      cases h
    next fault hunmap =>
      cases h
      exact .inr (.intro hindex hmodule hunmap)
  · rw [unlink_of_not_loaded hloaded] at h
    cases h
    exact .inl rfl

end Machine
end StackMachine
