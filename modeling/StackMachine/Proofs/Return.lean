import StackMachine.Proofs.Effect

/-!
# Return — calls and the returns that belong to them

A call leaves a frame of two words on the evaluation stack: the index of the calling module and,
above it, the address of the instruction after the call. Nothing marks these words as a frame. A
return takes whatever two words are on top, so it goes back to the caller as long as the
instructions between leave the frame alone.

* `Machine.frame_of_call` — the frame that a call leaves;
* `Machine.ReturnsTo` — what a return does, for each state that the calling module can be in;
* `Machine.loaded_of_after` — a slot is never given to another module;
* `Machine.call_returns` — the return that finds the frame of a call goes back to that call.
-/

namespace StackMachine
namespace Machine

variable {table : Interrupt.Table} {m m' : Machine} {index target : Word} {rest : List Word}

/-! ## Calls -/

/-- A call puts its frame in the place of the words that it takes. -/
theorem frame_of_call {op : Opcode} {i : Instruction} (hfetch : fetch m = .ok i m)
    (hop : Opcode.ofByte? i.opcode = some op) (hcall : op = .call ∨ op = .vcall)
    (hstep : step table m = .ok () m') :
    m'.stack.items = (m.pc + 1) :: m.active :: m.stack.items.drop op.takes := by
  have hint : op ≠ .int := by
    rintro rfl
    rcases hcall with hcall | hcall
    · cases hcall
    · cases hcall
  rw [step_of_fetch hfetch hop] at hstep
  have hperforms := performs_of_ok hint hstep
  rcases hcall with rfl | rfl
  · cases hperforms with
    | call => rfl
  · cases hperforms with
    | @vcall target index rest module hitems =>
      replace hitems : m.stack.items = target :: index :: rest := hitems
      rw [hitems]
      rfl

/-! ## Returns -/

/-- A return reads its frame off the stack before it checks it. -/
theorem perform_ret {operand : Word} (hitems : m.stack.items = target :: index :: rest) :
    perform table .ret operand m =
      (do frameTarget index target; drop 2; enter index target : Action Unit) m := by
  have hrequire : require 2 m = .ok () m := require_ok_iff.2 ⟨by simp [hitems], rfl⟩
  have hindex : peek 1 m = .ok index m := peek_ok_iff.2 ⟨by simp [hitems], rfl⟩
  have htarget : peek 0 m = .ok target m := peek_ok_iff.2 ⟨by simp [hitems], rfl⟩
  simp only [perform, bind_of_ok hrequire, bind_of_ok hindex, bind_of_ok htarget]

/-- A frame of a module that is gone is refused with the index. -/
theorem frameTarget_of_not_loaded (h : ∀ module, m.module index ≠ .ok module) :
    frameTarget index target m = .error (.illegalLibraryIndex index) m := by
  cases hmodule : m.module index with
  | ok module => exact absurd hmodule (h module)
  | error e =>
    rw [eq_of_module_error hmodule] at hmodule
    rw [frameTarget, get_bind]
    exact bind_error_iff.2 (.inl (attempt_error_iff.2 ⟨hmodule, rfl⟩))

/-- A frame that leads to no instruction is an illegal access. -/
theorem frameTarget_of_not_contains {module : Module} (hmodule : m.module index = .ok module)
    (h : module.contains target = false) :
    frameTarget index target m = .error .illegalAccess m := by
  rw [frameTarget, get_bind]
  refine bind_error_iff.2 (.inr ⟨module, m, attempt_ok_iff.2 ⟨hmodule, rfl⟩, ?_⟩)
  rw [h]
  rfl

/-- The next step is a return to an address of a module: it finds the two on top of the stack, and
takes them off and goes there, unless the module is gone or has no instruction there. -/
structure ReturnsTo (table : Interrupt.Table) (index target : Word) (rest : List Word)
    (m : Machine) : Prop where
  frame : m.stack.items = target :: index :: rest
  resumes : ∀ module, m.module index = .ok module → target.toNat < module.instructions.size →
    ∃ m', step table m = .ok () m' ∧ m'.active = index ∧ m'.pc = target ∧ m'.stack.items = rest
  unloaded : (∀ module, m.module index ≠ .ok module) →
    ∃ m', step table m = .error (.illegalLibraryIndex index) m' ∧ m'.stack = m.stack ∧
      m'.active = m.active
  outside : ∀ module, m.module index = .ok module → module.instructions.size ≤ target.toNat →
    ∃ m', step table m = .error .illegalAccess m' ∧ m'.stack = m.stack ∧ m'.active = m.active

/-- A return finds the frame that is on top of the stack. -/
theorem returnsTo_of_frame {i : Instruction} (hfetch : fetch m = .ok i m)
    (hop : Opcode.ofByte? i.opcode = some .ret)
    (hitems : m.stack.items = target :: index :: rest) : ReturnsTo table index target rest m := by
  have hstep : step table m = perform table .ret i.operand m.advanced := step_of_fetch hfetch hop
  have hadvanced : m.advanced.stack.items = target :: index :: rest := hitems
  -- a frame that is refused is still on the stack, since the check comes before the drop
  have hfault {e : Fault} (h : frameTarget index target m.advanced = .error e m.advanced) :
      ∃ m', step table m = .error e m' ∧ m'.stack = m.stack ∧ m'.active = m.active := by
    refine ⟨m.advanced, ?_, rfl, rfl⟩
    rw [hstep, perform_ret hadvanced]
    exact bind_error_iff.2 (.inl h)
  refine ⟨hitems, fun module hmodule hinside => ?_, fun hgone => ?_, fun module hmodule hend => ?_⟩
  · have hcontains : module.contains target = true := decide_eq_true hinside
    have htarget : frameTarget index target m.advanced = .ok () m.advanced :=
      frameTarget_ok_iff.2 ⟨⟨module, hmodule, hcontains⟩, rfl⟩
    have hdrop : drop 2 m.advanced =
        .ok () { m.advanced with stack := m.stack.withItems rest } :=
      drop_ok_iff.2 ⟨by simp [hadvanced], by simp [hadvanced]; rfl⟩
    refine ⟨{ m.advanced with stack := m.stack.withItems rest, active := index, pc := target },
      ?_, rfl, rfl, rfl⟩
    rw [hstep, perform_ret hadvanced, bind_of_ok htarget, bind_of_ok hdrop]
    rfl
  · exact hfault (frameTarget_of_not_loaded hgone)
  · exact hfault (frameTarget_of_not_contains hmodule (decide_eq_false (Nat.not_lt.2 hend)))

/-! ## Modules -/

/-- A module that is loaded in an old slot was there before: slots are not used again. -/
theorem Alters.loaded_before (h : Alters m m') {slot : Nat} (hslot : slot < m.modules.size)
    {module : Module} (hfound : m'.modules[slot]? = some (some module)) :
    m.modules[slot]? = some (some module) := by
  rcases h.loaded hfound with hbefore | ⟨hnew, -⟩
  · exact hbefore
  · exact absurd hslot (Nat.not_lt.2 hnew)

/-- A module that is loaded in an old slot after a call was loaded there before. -/
theorem loaded_of_call (htable : table.IsStandard) (call : Call) {slot : Nat}
    (hslot : slot < m.modules.size) {module : Module}
    (hfound : (call.apply table m).modules[slot]? = some (some module)) :
    m.modules[slot]? = some (some module) := by
  rcases call_cases htable call m with halters | ⟨-, halters⟩
  · exact halters.loaded_before hslot hfound
  · exact halters.loaded_before hslot hfound

/-- A module that is loaded in an old slot after a run was loaded there before. -/
theorem loaded_of_after (htable : table.IsStandard) (calls : List Call) {slot : Nat}
    (hslot : slot < m.modules.size) {module : Module}
    (hfound : (m.after table calls).modules[slot]? = some (some module)) :
    m.modules[slot]? = some (some module) := by
  induction calls generalizing m with
  | nil => exact hfound
  | cons call calls ih =>
    have hstays : slot < (call.apply table m).modules.size :=
      Nat.lt_of_lt_of_le hslot (slots_le_call htable call)
    exact loaded_of_call htable call hslot (ih hstays hfound)

/-! ## Calls and their returns -/

/-- A call that succeeds leaves a frame with its module and the address after it. Whatever is asked
of the machine then, as long as no instruction takes the frame or anything beneath it: a return that
is executed with nothing above the frame goes back to that module and that address and leaves what
is beneath the frame. It is refused, and nothing is taken off, if the module has been unloaded
since, or if the call was the last instruction of the module. -/
theorem call_returns (htable : table.IsStandard) {op : Opcode} {m m₁ : Machine} {i : Instruction}
    (hfetch : fetch m = .ok i m) (hop : Opcode.ofByte? i.opcode = some op)
    (hcall : op = .call ∨ op = .vcall) (hstep : step table m = .ok () m₁) :
    let rest := m.stack.items.drop op.takes
    m₁.stack.items = (m.pc + 1) :: m.active :: rest ∧
      ∀ (calls : List Call) (m₂ : Machine) (j : Instruction), m₂ = m₁.after table calls →
        Spares table (rest.length + 2) m₁ calls → m₂.stack.items.length = rest.length + 2 →
        fetch m₂ = .ok j m₂ → Opcode.ofByte? j.opcode = some .ret →
        ReturnsTo table m.active (m.pc + 1) rest m₂ ∧
          ∀ module, m₂.module m.active = .ok module → m.module m.active = .ok module ∧
            (m.pc + 1).toNat ≤ module.instructions.size := by
  intro rest
  have hframe : m₁.stack.items = (m.pc + 1) :: m.active :: rest :=
    frame_of_call hfetch hop hcall hstep
  refine ⟨hframe, ?_⟩
  rintro calls m₂ j rfl hspares hheight hnext hret
  constructor
  · -- the frame is spared, and the stack is no higher than it
    have hkept : (m.pc + 1) :: m.active :: rest <:+ (m₁.after table calls).stack.items :=
      suffix_after htable (hframe ▸ List.suffix_refl _) hspares
    exact returnsTo_of_frame hnext hret (hkept.eq_of_length hheight.symm).symm
  · -- the slot of the caller was in use when it called, so it holds the caller or nothing
    intro module hmodule
    rcases (fetch_ok_iff.1 hfetch).1 with ⟨caller, hcaller, hfound⟩
    have hslot : m.active.toNat < m.modules.size :=
      (Array.getElem?_eq_some_iff.1 (module_ok_iff.1 hcaller)).1
    have hinside : m.pc.toNat < caller.instructions.size := (Array.getElem?_eq_some_iff.1 hfound).1
    have hsame : m.module m.active = .ok module := by
      have hfirst : Call.apply table m .step = m₁ := by
        rw [Call.apply, left, hstep]
      refine module_ok_iff.2 (loaded_of_after htable (.step :: calls) hslot ?_)
      rw [after, List.foldl_cons, hfirst]
      exact module_ok_iff.1 hmodule
    refine ⟨hsame, ?_⟩
    rw [hcaller] at hsame
    cases hsame
    have hwrap : (m.pc + 1).toNat ≤ m.pc.toNat + 1 := by
      rw [UInt64.toNat_add]
      exact Nat.mod_le _ _
    exact Nat.le_trans hwrap hinside

/-- A call from within a call returns first, then the outer one. -/
theorem call_returns_nested :
    let program : Module := { instructions :=
      #[.of .call 2, .of .nop 0, .of .call 4, .of .ret 0, .of .ret 0] }
    let state (pc : Word) (steps : Nat) (items : List Word) : Machine :=
      { stack := { role := .evaluation, capacity := 8, items, height := items.length },
        pools := { role := .pool, capacity := 0 }, pc, steps, modules := #[some program],
        moduleCapacity := 1, loader := Loader.registry [] }
    step Interrupt.standard (state 0 0 [5]) = .ok () (state 2 1 [1, 0, 5]) ∧
      (state 2 1 [1, 0, 5]).after Interrupt.standard [.step, .step] = state 3 3 [1, 0, 5] ∧
      Spares Interrupt.standard 3 (state 2 1 [1, 0, 5]) [.step, .step] ∧
      ∃ m', step Interrupt.standard (state 3 3 [1, 0, 5]) = .ok () m' ∧ m'.active = 0 ∧
        m'.pc = 1 ∧ m'.stack.items = [5] := by
  intro program state
  have hcall : step Interrupt.standard (state 0 0 [5]) = .ok () (state 2 1 [1, 0, 5]) := rfl
  have hinner : Call.apply Interrupt.standard (state 2 1 [1, 0, 5]) .step =
      state 4 2 [3, 0, 1, 0, 5] := rfl
  have hback : Call.apply Interrupt.standard (state 4 2 [3, 0, 1, 0, 5]) .step =
      state 3 3 [1, 0, 5] := rfl
  have hafter : (state 2 1 [1, 0, 5]).after Interrupt.standard [.step, .step] =
      state 3 3 [1, 0, 5] := by
    rw [after, List.foldl_cons, hinner, List.foldl_cons, hback, List.foldl_nil]
  have hspares : Spares Interrupt.standard 3 (state 2 1 [1, 0, 5]) [.step, .step] := by
    refine spares_step rfl (Opcode.ofByte?_byte .call) (by decide) (by decide) ?_
    rw [hinner]
    exact spares_step rfl (Opcode.ofByte?_byte .ret) (by decide) (by decide) trivial
  have hreturns := (call_returns Interrupt.isStandard_standard rfl (Opcode.ofByte?_byte .call)
    (.inl rfl) hcall).2 _ _ _ hafter.symm hspares rfl rfl rfl
  exact ⟨hcall, hafter, hspares, hreturns.1.resumes program rfl (by decide)⟩

end Machine
end StackMachine
