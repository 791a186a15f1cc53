import StackMachine.Proofs.RoundTrip
import StackMachine.Proofs.Run

/-!
# Limits — what holds of every machine that a run reaches

The capacities given to a machine bound its stacks and its module table for as long as it runs.

* `Machine.WithinLimits` — the bounds, and that control stays inside a slot and its instructions;
* `Machine.Sound` — the same with what the machine knows of its own capacities, kept by every call;
* `Machine.within_limits_always` — the bounds hold after any calls on a program that was loaded, and
  slots are never taken away.
-/

namespace StackMachine

/-- Loading an image that was written gives back its header and its contents. -/
theorem Load.into_encode {i : Image} (hcount : i.Countable) (hi : i.Representable)
    (hclear : i.flags.contains .containsError = false) :
    Load.into {} i.encode = (.ok i.header, ({} : Module).holding i) :=
  Load.into_ok_iff.2 ⟨hclear, i.encoded, i, i.bytes_encoded, Image.writes_encoded hcount hi, rfl⟩

/-- An image that was written and is executable can be loaded again. -/
theorem Load.executable_encode {i : Image} (hcount : i.Countable) (hi : i.Representable)
    (hclear : i.flags.contains .containsError = false)
    (hexecutable : i.flags.contains .executable = true) :
    Load.executable i.encode = .ok (i.header, ({} : Module).holding i) := by
  have hheader : i.header.flags.contains .executable = true := hexecutable
  rw [Load.executable, Load.into_encode hcount hi hclear]
  exact if_pos hheader

namespace Machine

variable {table : Interrupt.Table} {c : Capacities} {m m' : Machine}

/-! ## The invariant -/

/-- The machine is within its capacities, the program itself is loaded, and control is at or right
behind an instruction of the active module, unless that module is gone. -/
structure WithinLimits (c : Capacities) (m : Machine) : Prop where
  stack : m.stack.items.length ≤ c.stack.toNat
  pools : m.pools.items.length ≤ c.pools.toNat
  slots_pos : 1 ≤ m.modules.size
  slots : m.modules.size ≤ max 1 c.modules.toNat
  program : ∃ module, m.modules[0]? = some (some module)
  active : m.active.toNat < m.modules.size
  pc : ∀ module, m.module m.active = .ok module → m.pc.toNat ≤ module.instructions.size
  regions : m.heap.Bounded

/-- The machine is within its limits and knows them. -/
structure Sound (c : Capacities) (m : Machine) : Prop extends WithinLimits c m where
  stackCapacity : m.stack.capacity = c.stack.toNat
  poolCapacity : m.pools.capacity = c.pools.toNat
  moduleCapacity : m.moduleCapacity = c.modules
  programs : ProgramsFit m

/-- The modules are told by the module table. -/
theorem module_congr (h : m'.modules = m.modules) (index : Word) :
    m'.module index = m.module index := by
  unfold Machine.module
  rw [h]

/-- A local change keeps the machine within its limits. -/
theorem Sound.isLocal (hm : Sound c m) (h : Local m m') : Sound c m' where
  stack := by
    have hbefore : m.stack.items.length ≤ m.stack.capacity := by
      rw [hm.stackCapacity]
      exact hm.stack
    rw [← hm.stackCapacity]
    exact h.stack hbefore
  pools := by
    have hbefore : m.pools.items.length ≤ m.pools.capacity := by
      rw [hm.poolCapacity]
      exact hm.pools
    rw [← hm.poolCapacity]
    exact h.pools hbefore
  slots_pos := by
    rw [h.modules]
    exact hm.slots_pos
  slots := by
    rw [h.modules]
    exact hm.slots
  program := by
    rw [h.modules]
    exact hm.program
  active := by
    rw [h.modules]
    rcases h.control with ⟨hactive, -⟩ | ⟨module, hmodule, -⟩
    · rw [hactive]
      exact hm.active
    · exact (Array.getElem?_eq_some_iff.1 (module_ok_iff.1 hmodule)).1
  pc := by
    intro module hmodule
    rw [module_congr h.modules] at hmodule
    rcases h.control with ⟨hactive, hpc⟩ | ⟨target, htarget, hcontains⟩
    · rw [hactive] at hmodule
      rw [hpc]
      exact hm.pc module hmodule
    · rw [htarget] at hmodule
      cases hmodule
      exact Nat.le_of_lt (by simpa [Module.contains] using hcontains)
  regions := h.heap.bounded hm.regions
  stackCapacity := h.stackCapacity.trans hm.stackCapacity
  poolCapacity := h.poolCapacity.trans hm.poolCapacity
  moduleCapacity := h.moduleCapacity.trans hm.moduleCapacity
  programs := hm.programs.alters (.locally h)

/-- Counting an instruction takes control at most right behind the last one. -/
theorem Sound.advanced (hm : Sound c m) (hnext : ¬Stalled m) : Sound c m.advanced where
  toWithinLimits := { hm.toWithinLimits with
    pc := by
      intro module (hmodule : m.module m.active = .ok module)
      have hinside : m.pc.toNat < module.instructions.size := by
        refine Nat.not_le.1 fun houtside => hnext fun found hfound => ?_
        rw [hmodule] at hfound
        cases hfound
        exact houtside
      rw [toNat_pc_advanced hm.programs hmodule hinside]
      exact hinside }
  stackCapacity := hm.stackCapacity
  poolCapacity := hm.poolCapacity
  moduleCapacity := hm.moduleCapacity
  programs := hm.programs

/-! ## Linking and unlinking -/

/-- The memory of a fresh module is short enough. -/
theorem bounded_install {heap : Heap} {module : Module} (hfresh : module.Fresh)
    (hheap : heap.Bounded) : (install heap module).2.Bounded := by
  rcases install_cases heap hfresh with heq | ⟨bytes, hfits, heq⟩
  · rw [heq]
    exact hheap
  · rw [heq]
    exact hheap.insert (by simpa using hfits)

theorem bounded_unmapFrom {s : Segment} {heap heap' : Heap} (h : s.unmapFrom heap = .ok heap')
    (hheap : heap.Bounded) : heap'.Bounded := by
  rcases Segment.unmapFrom_cases h with ⟨-, rfl⟩ | ⟨base, length, -, -, rfl⟩
  · exact hheap
  · exact hheap.erase base

/-- Linking checks for a slot, and a library brings only what fits. -/
theorem Sound.links (hm : Sound c m) {path : String} {index : Word} (h : Links path m index m') :
    Sound c m' := by
  have hprograms : ProgramsFit m' := hm.programs.alters (.links h (.refl m'))
  cases h with
  | @intro module loader hroom hload =>
    -- the new slot is behind all others, so that nothing changes for the slots in use
    have hold {slot : Nat} (hslot : slot < m.modules.size) :
        (m.modules.push (some (install m.heap module).1))[slot]? = m.modules[slot]? := by
      rw [Array.getElem?_push, if_neg (Nat.ne_of_lt hslot)]
    exact {
      stack := hm.stack
      pools := hm.pools
      slots_pos := by simp
      slots := by
        rw [hm.moduleCapacity] at hroom
        rw [Array.size_push]
        exact Nat.le_trans hroom (Nat.le_max_right _ _)
      program := by
        rw [hold hm.slots_pos]
        exact hm.program
      active := by
        rw [Array.size_push]
        exact Nat.lt_succ_of_lt hm.active
      pc := by
        intro found hfound
        refine hm.pc found (module_ok_iff.2 ?_)
        rw [← hold hm.active]
        exact module_ok_iff.1 hfound
      regions := bounded_install (Linker.fresh_of_load hload) hm.regions
      stackCapacity := hm.stackCapacity
      poolCapacity := hm.poolCapacity
      moduleCapacity := hm.moduleCapacity
      programs := hprograms }

/-- A slot other than that of the program may be emptied, also that of the active module. -/
theorem Sound.emptied (hm : Sound c m) {index : Word} (hindex : index ≠ 0) {heap : Heap}
    (hheap : heap.Bounded) (loader : Loader) (journal : Array Notice) :
    Sound c
      { m with modules := m.modules.setIfInBounds index.toNat none, heap, loader, journal } where
  stack := hm.stack
  pools := hm.pools
  slots_pos := by
    rw [Array.size_setIfInBounds]
    exact hm.slots_pos
  slots := by
    rw [Array.size_setIfInBounds]
    exact hm.slots
  program := by
    rw [Array.getElem?_setIfInBounds_ne (toNat_ne_zero hindex)]
    exact hm.program
  active := by
    rw [Array.size_setIfInBounds]
    exact hm.active
  pc := by
    intro module hmodule
    exact hm.pc module (module_ok_iff.2 (loaded_of_emptied (module_ok_iff.1 hmodule)).2)
  regions := hheap
  stackCapacity := hm.stackCapacity
  poolCapacity := hm.poolCapacity
  moduleCapacity := hm.moduleCapacity
  programs slot module hslot := hm.programs slot module (loaded_of_emptied hslot).2

/-- Whatever a call does to a machine keeps it within its limits. -/
theorem Sound.alters (hm : Sound c m) (h : Alters m m') : Sound c m' := by
  cases h with
  | locally hlocal => exact hm.isLocal hlocal
  | links hlinks hlocal => exact (hm.links hlinks).isLocal hlocal
  | unlinks hunlinks hlocal =>
    cases hunlinks with
    | intro hindex hmodule hunmap =>
      exact (hm.emptied hindex (bounded_unmapFrom hunmap hm.regions) _ _).isLocal hlocal
  | tears htears =>
    cases htears with
    | intro hindex hmodule hunmap => exact hm.emptied hindex hm.regions m.loader m.journal

/-! ## Runs -/

/-- A call keeps a machine within its limits. -/
theorem Sound.call (htable : table.IsStandard) (hm : Sound c m) (call : Call) :
    Sound c (call.apply table m) := by
  rcases call_cases htable call m with halters | ⟨hnext, halters⟩
  · exact hm.alters halters
  · exact (hm.advanced hnext).alters halters

/-- A machine starts within its limits. -/
theorem sound_start {module : Module} {loader : Loader} {host : Host} (hfresh : module.Fresh)
    (h : start module loader c host = .ok m) : Sound c m := by
  have hprograms : ProgramsFit m := programsFit_start h hfresh.instructions
  rcases start_ok h with ⟨hentry, rfl⟩
  exact {
    stack := Nat.zero_le _
    pools := Nat.zero_le _
    slots_pos := Nat.le_refl 1
    slots := Nat.le_max_left 1 _
    program := ⟨_, rfl⟩
    active := Nat.zero_lt_one
    pc := by
      intro found hfound
      cases hfound
      rw [instructions_install]
      exact Nat.le_of_lt (by simpa [Module.contains] using hentry)
    regions := bounded_install hfresh (Heap.bounded_of_empty rfl)
    stackCapacity := rfl
    poolCapacity := rfl
    moduleCapacity := rfl
    programs := hprograms }

/-- A machine that was started on a loaded program stays within its limits, whatever is asked of it
and whether it succeeds or fails, and its slots are never taken away. -/
theorem within_limits_always {image : Bytes} {header : Header} {module : Module} {loader : Loader}
    {capacities : Capacities} {host : Host} {first : Machine}
    (hload : Load.executable image = .ok (header, module))
    (hstart : start module loader capacities host = .ok first) {table : Interrupt.Table}
    (htable : table.IsStandard) (calls later : List Call) :
    WithinLimits capacities (first.after table calls) ∧
      (first.after table calls).modules.size ≤
        ((first.after table calls).after table later).modules.size := by
  have hfirst : Sound capacities first := sound_start (Load.fresh_of_executable hload) hstart
  have hsound : Sound capacities (first.after table calls) :=
    after_induction (fun _ call hm => hm.call htable call) hfirst calls
  refine ⟨hsound.toWithinLimits, ?_⟩
  refine after_induction
    (P := fun m => (first.after table calls).modules.size ≤ m.modules.size) ?_ (Nat.le_refl _) later
  intro m call hm
  exact Nat.le_trans hm (slots_le_call htable call)

/-- A machine with room for one word and no library stays within these limits when it is asked for
more. -/
theorem within_limits_tiny :
    let image : Image :=
      { flags := .executable, instructions := #[.of .push 1, .of .push 2], memory := [5] }
    let tiny : Capacities := { stack := 1, pools := 0, modules := 0 }
    ∃ (module : Module) (first : Machine),
      Load.executable image.encode = .ok (image.header, module) ∧
        start module (Loader.registry []) tiny {} = .ok first ∧
        Interrupt.standard.IsStandard ∧
        WithinLimits tiny
          (first.after Interrupt.standard [.step, .step, .link "library", .unlink 1]) := by
  intro image tiny
  have hload : Load.executable image.encode = .ok (image.header, ({} : Module).holding image) :=
    Load.executable_encode ⟨by decide, by decide, by decide⟩ ⟨by decide, by decide, by decide⟩
      (by decide) (by decide)
  have hstart : ∃ first, start (({} : Module).holding image) (Loader.registry []) tiny {} =
      .ok first := ⟨_, rfl⟩
  rcases hstart with ⟨first, hstart⟩
  have hlimits := within_limits_always hload hstart Interrupt.isStandard_standard
    [.step, .step, .link "library", .unlink 1] []
  exact ⟨_, first, hload, hstart, Interrupt.isStandard_standard, hlimits.1⟩

end Machine
end StackMachine
