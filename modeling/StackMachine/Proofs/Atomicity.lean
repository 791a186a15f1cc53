import StackMachine.Proofs.Segment

/-!
# Atomicity — steps that fail change nothing

A step that ends in a fault leaves the stacks, guest memory and the module table as they were. The
one exception is the service that reads from the host, where input that arrived before the fault
stays.

* `Machine.clean_exec` — an instruction that faults leaves the guest as it was;
* `Machine.after_stalled` — a machine without a next instruction stays as it is;
* `Machine.failed_step_atomic` — what a failed step leaves, in every machine that a run can reach.
-/

namespace StackMachine
namespace Machine

open Interrupt

variable {table : Interrupt.Table} {m m' : Machine}

/-- The next instruction calls the service that reads from the host. -/
def AwaitsInput (m : Machine) : Prop :=
  ∃ i, fetch m = .ok i m ∧ Opcode.ofByte? i.opcode = some .int ∧ i.operand = 12

/-- Every instruction but that which reads input is clean in a machine whose modules are mapped. -/
theorem clean_exec (hm : Segmented 1 m) {i : Instruction}
    (hread : ¬(Opcode.ofByte? i.opcode = some .int ∧ i.operand = 12)) :
    Clean (exec standard i) m := by
  intro e m' he
  rcases exec_cases standard i m with ⟨fault, hfault⟩ | ⟨op, hop, -, hexec⟩ |
    ⟨service, hint, hget, hexec⟩
  · rw [hfault] at he
    cases he
    exact .refl m
  · rw [hexec] at he
    exact perform_clean hop e m' he
  · rw [hexec] at he
    have hfalters := falters_of_error (provides_of_get_standard hget) he
    generalize hcode : i.operand.toNat = code at hfalters
    cases hfalters with
    | clean hsame => exact hsame
    | unlink hitems htears => exact absurd htears (hm.not_tears (Nat.le_refl 1))
    | read => exact absurd ⟨hint, UInt64.toNat_inj.1 hcode⟩ hread

/-- A machine without a next instruction stays as it is, however often it is stepped. -/
theorem after_stalled {e : Fault} (h : step table m = .error e m) (n : Nat) :
    m.after table (List.replicate n .step) = m := by
  induction n with
  | zero => rfl
  | succ n ih =>
    have hcall : Call.apply table m .step = m := left_of_error h
    rw [List.replicate_succ, after, List.foldl_cons, hcall]
    exact ih

/-- A step that fails leaves the stacks, guest memory, the module table and the active module as
they were. If there was no instruction to execute, it leaves the counters too and every later step
fails alike; otherwise the program counter has moved on by one. The program may be any with a length
of sixty-four bits, and region numbers must not have run out. -/
theorem failed_step_atomic {module : Module} {loader : Loader} {capacities : Capacities}
    {host : Host} {first : Machine} (hstart : start module loader capacities host = .ok first)
    (hfits : module.instructions.size < UInt64.size) (calls : List Call) (m : Machine)
    (hm : m = first.after standard calls)
    (hregions : m.heap.regions.size ≤ Address.maxRegionLength) (hread : ¬m.AwaitsInput) {e : Fault}
    (hstep : step standard m = .error e m') :
    (m'.stack = m.stack ∧ m'.pools = m.pools ∧ m'.heap = m.heap ∧ m'.modules = m.modules ∧
      m'.active = m.active) ∧
    (m.Stalled → m'.pc = m.pc ∧ m'.steps = m.steps ∧
      ∀ n, step standard (m'.after standard (List.replicate n .step)) = .error e m') ∧
    (¬m.Stalled → m'.pc.toNat = m.pc.toNat + 1) := by
  have hsegmented : Segmented 1 m := by
    subst hm
    have hfirst : Segmented 1 first := segmented_start hstart
    exact segmented_after isStandard_standard (Nat.le_refl 1) hfirst calls hregions
  have hprograms : ProgramsFit m := by
    subst hm
    exact after_induction (fun _ call hbefore => hbefore.call isStandard_standard call)
      (programsFit_start hstart hfits) calls
  -- a stalled machine is left as it is; any other has counted the instruction before the fault
  rcases step_cases standard m with ⟨hstalled, e', he'⟩ | ⟨hnext, i, hi, hexec⟩
  · rw [he'] at hstep
    cases hstep
    refine ⟨⟨rfl, rfl, rfl, rfl, rfl⟩, fun _ => ⟨rfl, rfl, fun n => ?_⟩, absurd hstalled⟩
    rw [after_stalled he' n]
    exact he'
  · rw [hexec] at hstep
    have hclean : Clean (exec standard i) m.advanced :=
      clean_exec hsegmented.advanced fun h => hread ⟨i, hi, h⟩
    rcases hclean e m' hstep with ⟨host', loader', journal', rfl⟩
    refine ⟨⟨rfl, rfl, rfl, rfl, rfl⟩, fun hstalled => absurd hstalled hnext, fun _ => ?_⟩
    rcases (fetch_ok_iff.1 hi).1 with ⟨active, hactive, hfound⟩
    exact toNat_pc_advanced hprograms hactive (Array.getElem?_eq_some_iff.1 hfound).1

/-- An addition that finds only one number on the stack leaves it there. -/
theorem failed_addition_atomic :
    let program : Module := { instructions := #[.of .push 7, .of (.binary (.add .unsigned)) 0] }
    ∃ (first m m' : Machine), start program (Loader.registry []) {} {} = .ok first ∧
      m = first.after standard [.step] ∧
      m.heap.regions.size ≤ Address.maxRegionLength ∧ ¬m.AwaitsInput ∧ ¬m.Stalled ∧
      step standard m = .error .stackUnderflow m' ∧ m.stack.items = [7] ∧ m'.stack = m.stack ∧
      m'.pc.toNat = m.pc.toNat + 1 := by
  intro program
  have hread {m : Machine} {i : Instruction} (hi : fetch m = .ok i m)
      (hop : Opcode.ofByte? i.opcode ≠ some .int) : ¬m.AwaitsInput := by
    rintro ⟨j, hj, hint, -⟩
    rw [hi] at hj
    cases hj
    exact hop hint
  have hrun : ∃ (first m m' : Machine), start program (Loader.registry []) {} {} = .ok first ∧
      m = first.after standard [.step] ∧
      m.heap.regions.size ≤ Address.maxRegionLength ∧ ¬m.AwaitsInput ∧ ¬m.Stalled ∧
      step standard m = .error .stackUnderflow m' ∧ m.stack.items = [7] := by
    refine ⟨_, _, _, rfl, rfl, by decide, hread rfl (by decide), ?_, rfl, rfl⟩
    intro hstalled
    exact absurd (hstalled _ rfl) (by decide)
  rcases hrun with ⟨first, m, m', hstart, hm, hregions, hinput, hgoes, hstep, hitems⟩
  have hatomic := failed_step_atomic hstart (by decide) _ m hm hregions hinput hstep
  exact ⟨first, m, m', hstart, hm, hregions, hinput, hgoes, hstep, hitems, hatomic.1.1,
    hatomic.2.2 hgoes⟩

end Machine
end StackMachine
