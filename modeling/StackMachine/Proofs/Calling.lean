import StackMachine.Proofs.Addressing
import StackMachine.Proofs.Slots

/-!
# Calling — two ways to call, one kind of frame

A plain call has its target in the code, checks it against the active module and makes room for a
frame on top of the stack. A call through the stack finds a module and a target there, checks the
target against that module and writes its frame over the two words. Underneath, both are the same
call:

* `Machine.callAt` — the call itself, to an address of a module, with a frame on the rest of the
  stack;
* `Machine.perform_call`, `Machine.perform_vcall_eq` — a plain call is a call to the active module,
  a call through the stack one to the module that the stack names;
* `Machine.Twins` — machines at the same place whose code and stacks may differ;
* `Machine.vcall_into_active_is_call` — through the stack the active module is called as by a plain
  call, and any other module as far as it is loaded.
-/

namespace StackMachine
namespace Machine

variable {table : Interrupt.Table} {m n : Machine} {operand index target : Word} {rest : List Word}
  {module : Module}

/-! ## Calls -/

/-- What a call makes of a machine: a frame with the active module and the program counter is put on
the rest of the stack, and control goes to the target. It is refused if the module is not loaded or
the target is none of its instructions. -/
def callAt (m : Machine) (index target : Word) (rest : List Word) :
    EStateM.Result Fault Machine Unit :=
  match m.module index with
  | .ok module =>
    if module.contains target then
      .ok () { m with
        stack := m.stack.withItems (m.pc :: m.active :: rest), active := index, pc := target }
    else .error .illegalAccess m
  | .error e => .error e m

/-- A call into a module that is not loaded is refused with the index. -/
theorem callAt_of_not_loaded (h : ∀ module, m.module index ≠ .ok module) :
    m.callAt index target rest = .error (.illegalLibraryIndex index) m := by
  unfold callAt
  cases hmodule : m.module index with
  | ok module => exact absurd hmodule (h module)
  | error e =>
    rw [eq_of_module_error hmodule]

/-- A call of an instruction of a loaded module puts the frame on the stack and goes there. -/
theorem callAt_of_contains (hmodule : m.module index = .ok module)
    (htarget : module.contains target = true) :
    m.callAt index target rest = .ok () { m with
      stack := m.stack.withItems (m.pc :: m.active :: rest), active := index, pc := target } := by
  unfold callAt
  rw [hmodule]
  exact if_pos htarget

/-- A call of what is no instruction of the module is an illegal access. -/
theorem callAt_of_not_contains (hmodule : m.module index = .ok module)
    (htarget : ¬module.contains target = true) :
    m.callAt index target rest = .error .illegalAccess m := by
  unfold callAt
  rw [hmodule]
  exact if_neg htarget

/-- A call through the stack writes its frame over the words that it takes. -/
theorem perform_vcall_eq (hitems : m.stack.items = target :: index :: rest) :
    perform table .vcall operand m = m.callAt index target rest := by
  rw [perform_vcall hitems]
  by_cases hloaded : ∃ module, m.module index = .ok module
  · rcases hloaded with ⟨module, hmodule⟩
    by_cases hcontains : module.contains target = true
    · have hframe : frameTarget index target m = .ok () m :=
        frameTarget_ok_iff.2 ⟨⟨module, hmodule, hcontains⟩, rfl⟩
      have hactive : replace 1 m.active m =
          .ok () { m with stack := m.stack.withItems (target :: m.active :: rest) } :=
        replace_ok_iff.2 ⟨by simp [hitems], by simp [hitems]⟩
      have hpc : replace 0 m.pc { m with stack := m.stack.withItems (target :: m.active :: rest) } =
          .ok () { m with stack := m.stack.withItems (m.pc :: m.active :: rest) } :=
        replace_top rfl
      rw [bind_of_ok hframe, get_bind, bind_of_ok hactive, bind_of_ok hpc,
        callAt_of_contains hmodule hcontains]
      rfl
    · rw [callAt_of_not_contains hmodule hcontains]
      refine bind_error_iff.2 (.inl (frameTarget_of_not_contains hmodule ?_))
      exact Bool.eq_false_iff.2 hcontains
  · have hnone : ∀ module, m.module index ≠ .ok module := fun module hmodule =>
      hloaded ⟨module, hmodule⟩
    rw [callAt_of_not_loaded hnone]
    exact bind_error_iff.2 (.inl (frameTarget_of_not_loaded hnone))

/-- In a loaded module, a target is accepted exactly if it is an instruction. -/
theorem branchTarget_of_loaded (hmodule : m.module m.active = .ok module) (target : Word) :
    branchTarget target m =
      if module.contains target then .ok target m else .error .illegalAccess m := by
  have hactive : activeModule m = .ok module m := activeModule_ok_iff.2 ⟨hmodule, rfl⟩
  unfold branchTarget
  rw [bind_of_ok hactive]
  split
  · rfl
  · rfl

/-- A plain call is a call to the active module, which is loaded where an instruction of it is
executed. -/
theorem perform_call (hmodule : m.module m.active = .ok module)
    (hroom : m.stack.items.length + 2 ≤ m.stack.capacity) :
    perform table .call target m = m.callAt m.active target m.stack.items := by
  have hreserve : reserve 2 m = .ok () m := reserve_ok_iff.2 ⟨by omega, rfl⟩
  have hbranch := branchTarget_of_loaded hmodule target
  simp only [perform, bind_of_ok hreserve]
  by_cases hcontains : module.contains target = true
  · rw [if_pos hcontains] at hbranch
    have hactive : push m.active m =
        .ok () { m with stack := m.stack.withItems (m.active :: m.stack.items) } :=
      push_ok_iff.2 ⟨by omega, rfl⟩
    -- room for both words was reserved, so the second one fits as well
    have hpc : push m.pc { m with stack := m.stack.withItems (m.active :: m.stack.items) } =
        .ok () { m with stack := m.stack.withItems (m.pc :: m.active :: m.stack.items) } := by
      refine push_ok_iff.2 ⟨?_, rfl⟩
      simp only [Stack.items_withItems, Stack.capacity_withItems, List.length_cons]
      omega
    rw [bind_of_ok hbranch, get_bind, bind_of_ok hactive, bind_of_ok hpc,
      callAt_of_contains hmodule hcontains]
    rfl
  · rw [if_neg hcontains] at hbranch
    rw [callAt_of_not_contains hmodule hcontains]
    exact bind_error_iff.2 (.inl hbranch)

/-! ## Steps -/

variable {s : List Word} {t : Word}

/-- If there is a next instruction, the active module is loaded. -/
theorem Ahead.exists_active {op : Opcode} {ops : List (Opcode × Word)}
    (h : m.Ahead ((op, operand) :: ops)) : ∃ module, m.module m.active = .ok module := by
  rcases h with ⟨⟨i, hfetch, -, -⟩, -⟩
  rcases (fetch_ok_iff.1 hfetch).1 with ⟨module, hmodule, -⟩
  exact ⟨module, hmodule⟩

/-- A call with the index and the target on the stack. -/
theorem Poised.step_vcall (h : m.Poised [(.vcall, operand)] (s ++ [index, t])) :
    step table m = m.advanced.callAt index t s.reverse := by
  rw [step_of_ahead h.code]
  exact perform_vcall_eq h.items_append

/-- A call with the target in the instruction is one into the active module. -/
theorem Poised.step_call (h : m.Poised [(.call, t)] s)
    (hroom : s.length + 2 ≤ m.stack.capacity) :
    step table m = m.advanced.callAt m.active t s.reverse := by
  rcases h.code.exists_active with ⟨module, hmodule⟩
  replace hmodule : m.advanced.module m.advanced.active = .ok module := hmodule
  have hitems : m.advanced.stack.items = s.reverse := h.items
  have hfits : m.advanced.stack.items.length + 2 ≤ m.advanced.stack.capacity := by
    rw [hitems, List.length_reverse]
    exact hroom
  rw [step_of_ahead h.code, perform_call hmodule hfits, hitems]
  rfl

/-- The machines are at the same place. Their code may differ, but the active modules have the same
number of instructions; the words on their stacks may differ, but there is room for the same
number. -/
structure Twins (m n : Machine) : Prop where
  capacity : m.stack.capacity = n.stack.capacity
  pools : m.pools = n.pools
  heap : m.heap = n.heap
  pc : m.pc = n.pc
  active : m.active = n.active
  size : ∀ {module module'}, m.module m.active = .ok module → n.module n.active = .ok module' →
    module.instructions.size = module'.instructions.size

/-- A call of the instruction at `t` from the place of `m` has succeeded: the module and the address
after the call are on top of the words `s`, and nothing but the stack has changed in the guest. -/
structure Called (m : Machine) (s : List Word) (t : Word) (m' : Machine) : Prop where
  stack : m'.stack.toList = s ++ [m.active, m.pc + 1]
  pc : m'.pc = t
  active : m'.active = m.active
  pools : m'.pools = m.pools
  heap : m'.heap = m.heap

theorem toList_withItems_frame (stack : Stack) (s : List Word) (a b : Word) :
    (stack.withItems (b :: a :: s.reverse)).toList = s ++ [a, b] := by
  simp [Stack.toList]

/-- Both calls succeed and leave the same frame at the same place, or both are refused. -/
theorem Twins.called_or_refused (htwins : m.Twins n)
    (hm : m.Poised [(.vcall, operand)] (s ++ [m.active, t])) (hn : n.Poised [(.call, t)] s) :
    (∃ m' n', step table m = .ok () m' ∧ step table n = .ok () n' ∧
      m.Called s t m' ∧ m.Called s t n') ∨
    (step table m = .error .illegalAccess m.advanced ∧
      step table n = .error .illegalAccess n.advanced) := by
  rcases hm.code.exists_active with ⟨module, hmodule⟩
  rcases hn.code.exists_active with ⟨module', hmodule'⟩
  have hroom : s.length + 2 ≤ n.stack.capacity := by
    have hfits := hm.fits
    rwa [List.length_append, htwins.capacity] at hfits
  -- the two targets are checked against different modules, which are of the same size
  have hsize : module'.contains t = module.contains t := by
    unfold Module.contains
    rw [htwins.size hmodule hmodule']
  rw [hm.step_vcall, hn.step_call hroom]
  by_cases hcontains : module.contains t = true
  · left
    refine ⟨_, _, callAt_of_contains hmodule hcontains,
      callAt_of_contains hmodule' (hsize.trans hcontains), ?_, ?_⟩
    · exact ⟨toList_withItems_frame _ s _ _, rfl, rfl, rfl, rfl⟩
    · refine ⟨?_, rfl, htwins.active.symm, htwins.pools.symm, htwins.heap.symm⟩
      rw [htwins.active, htwins.pc]
      exact toList_withItems_frame _ s _ _
  · right
    refine ⟨callAt_of_not_contains hmodule hcontains, callAt_of_not_contains hmodule' ?_⟩
    rwa [hsize]

/-- Through the stack the active module is called as by a plain call from the same place: both
succeed, with the same frame on the same stack and in the same guest, or both are refused as illegal
accesses. Any module can be called through the stack exactly if its slot is loaded and the target is
one of its instructions; a slot that is empty or does not exist is refused as such, whatever the
target. -/
theorem vcall_into_active_is_call (table : Interrupt.Table) (s : List Word) (t operand : Word) :
    (∀ m n : Machine, m.Twins n → m.Poised [(.vcall, operand)] (s ++ [m.active, t]) →
      n.Poised [(.call, t)] s →
      (∃ m' n', step table m = .ok () m' ∧ step table n = .ok () n' ∧
        m.Called s t m' ∧ m.Called s t n') ∨
      (step table m = .error .illegalAccess m.advanced ∧
        step table n = .error .illegalAccess n.advanced)) ∧
    ∀ (m : Machine) (index : Word), m.Poised [(.vcall, operand)] (s ++ [index, t]) →
      ((∃ m', step table m = .ok () m') ↔ ∃ module,
        m.modules[index.toNat]? = some (some module) ∧ t.toNat < module.instructions.size) ∧
      ((∀ module, m.modules[index.toNat]? ≠ some (some module)) →
        step table m = .error (.illegalLibraryIndex index) m.advanced) ∧
      ∀ module, m.modules[index.toNat]? = some (some module) →
        module.instructions.size ≤ t.toNat → step table m = .error .illegalAccess m.advanced := by
  refine ⟨fun m n htwins hm hn => htwins.called_or_refused hm hn, fun m index hm => ?_⟩
  have hgone : (∀ module, m.modules[index.toNat]? ≠ some (some module)) →
      step table m = .error (.illegalLibraryIndex index) m.advanced := by
    intro hnone
    rw [hm.step_vcall]
    refine callAt_of_not_loaded fun module hmodule => hnone module ?_
    exact module_ok_iff.1 hmodule
  have houtside : ∀ module, m.modules[index.toNat]? = some (some module) →
      module.instructions.size ≤ t.toNat → step table m = .error .illegalAccess m.advanced := by
    intro module hmodule hend
    rw [hm.step_vcall]
    have hloaded : m.advanced.module index = .ok module := module_ok_iff.2 hmodule
    refine callAt_of_not_contains hloaded ?_
    simpa only [Module.contains, decide_eq_true_eq, Nat.not_lt] using hend
  refine ⟨⟨?_, ?_⟩, hgone, houtside⟩
  · rintro ⟨m', hstep⟩
    by_cases hloaded : ∃ module, m.modules[index.toNat]? = some (some module)
    · rcases hloaded with ⟨module, hmodule⟩
      refine ⟨module, hmodule, Nat.lt_of_not_le fun hend => ?_⟩
      rw [houtside module hmodule hend] at hstep
      cases hstep
    · rw [hgone fun module hmodule => hloaded ⟨module, hmodule⟩] at hstep
      cases hstep
  · rintro ⟨module, hmodule, hinside⟩
    have hloaded : m.advanced.module index = .ok module := module_ok_iff.2 hmodule
    rw [hm.step_vcall]
    exact ⟨_, callAt_of_contains hloaded (decide_eq_true hinside)⟩

/-- Two programs are at the same place, one about to call its last instruction through the stack and
one by a plain call. A third one calls a module that was never linked. -/
theorem vcall_into_active_is_call_last :
    let indirect : Module :=
      { instructions := #[.of .push 7, .of .push 0, .of .push 4, .of .vcall 0, .of .nop 0] }
    let direct : Module :=
      { instructions := #[.of .push 7, .of .nop 0, .of .nop 0, .of .call 4, .of .nop 0] }
    let stray : Module :=
      { instructions := #[.of .push 7, .of .push 1, .of .push 4, .of .vcall 0, .of .nop 0] }
    ∃ first first' first'' m n k : Machine,
      start indirect (Loader.registry []) {} {} = .ok first ∧
      start direct (Loader.registry []) {} {} = .ok first' ∧
      start stray (Loader.registry []) {} {} = .ok first'' ∧
      m = first.after Interrupt.standard [.step, .step, .step] ∧
      n = first'.after Interrupt.standard [.step, .step, .step] ∧
      k = first''.after Interrupt.standard [.step, .step, .step] ∧
      (∃ m' n', step Interrupt.standard m = .ok () m' ∧ step Interrupt.standard n = .ok () n' ∧
        m.Called [7] 4 m' ∧ m.Called [7] 4 n') ∧
      step Interrupt.standard k = .error (.illegalLibraryIndex 1) k.advanced := by
  intro indirect direct stray
  have hrun : ∃ first first' first'' m n k : Machine,
      start indirect (Loader.registry []) {} {} = .ok first ∧
      start direct (Loader.registry []) {} {} = .ok first' ∧
      start stray (Loader.registry []) {} {} = .ok first'' ∧
      m = first.after Interrupt.standard [.step, .step, .step] ∧
      n = first'.after Interrupt.standard [.step, .step, .step] ∧
      k = first''.after Interrupt.standard [.step, .step, .step] ∧
      m.Twins n ∧ m.active = 0 ∧ m.Poised [(.vcall, 0)] [7, 0, 4] ∧ n.Poised [(.call, 4)] [7] ∧
      k.Poised [(.vcall, 0)] [7, 1, 4] ∧ k.modules.size = 1 ∧
      ∃ m', step Interrupt.standard m = .ok () m' := by
    dsimp only [indirect, direct, stray]
    set_option maxRecDepth 3000 in
    refine ⟨_, _, _, _, _, _, rfl, rfl, rfl, rfl, rfl, rfl, ⟨rfl, rfl, rfl, rfl, rfl, ?_⟩, rfl,
      ⟨⟨⟨_, rfl, rfl, rfl⟩, trivial⟩, by decide +kernel, by decide +kernel⟩,
      ⟨⟨⟨_, rfl, rfl, rfl⟩, trivial⟩, by decide +kernel, by decide +kernel⟩,
      ⟨⟨⟨_, rfl, rfl, rfl⟩, trivial⟩, by decide +kernel, by decide +kernel⟩, rfl, ⟨_, rfl⟩⟩
    intro module module' hmodule hmodule'
    cases hmodule
    cases hmodule'
    rfl
  rcases hrun with ⟨first, first', first'', m, n, k, hfirst, hfirst', hfirst'', hm, hn, hk, htwins,
    hactive, hindirect, hdirect, hstray, hslots, hok⟩
  refine ⟨first, first', first'', m, n, k, hfirst, hfirst', hfirst'', hm, hn, hk, ?_, ?_⟩
  · have hcall := (vcall_into_active_is_call Interrupt.standard [7] 4 0).1 m n htwins
      (by rw [hactive]; exact hindirect) hdirect
    rcases hcall with hcalled | ⟨hrefused, -⟩
    · exact hcalled
    · rcases hok with ⟨m', hstep⟩
      rw [hrefused] at hstep
      cases hstep
  · refine ((vcall_into_active_is_call Interrupt.standard [7] 4 0).2 k 1 hstray).2.1 ?_
    intro module hmodule
    have hinside := (Array.getElem?_eq_some_iff.1 hmodule).1
    rw [hslots] at hinside
    exact absurd hinside (by decide)

end Machine
end StackMachine
