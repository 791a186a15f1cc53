import StackMachine.Proofs.Effect
import StackMachine.Proofs.Enough

/-!
# Underflow — when a stack is too short

An instruction says how many words it needs on the evaluation stack, how many of them it takes off
and how many it puts there. It finds the stack too short exactly when fewer words than it needs are
there, whatever else is wrong with the machine, and otherwise keeps to its numbers.

* `Opcode.needs`, `Interrupt.needs` — the number of words that have to be there;
* `StackEffect` — what is documented of an instruction;
* `Machine.perform_underflow`, `Machine.service_underflow` — with fewer words the first check fails;
* `Machine.enough_perform`, `Machine.enough_service` — with that many words no check of the stack
  fails;
* `Machine.stack_effect_exact` — both directions, and what a step that succeeds does to the stack.
-/

namespace StackMachine

/-! ## Effects -/

/-- How many words an operation needs on the stack. The word that is duplicated is not taken off,
but has to be there. -/
def Opcode.needs : Opcode → (operand : Word) → Nat
  | .dup, operand => operand.toNat + 1
  | op, _ => op.takes

/-- How many words the standard service with a code needs on the stack. The service that exits looks
at its code and does not come to take it off. -/
def Interrupt.needs : Nat → Nat
  | 6 => 1
  | code => Interrupt.takes code

/-- What is documented of an instruction: the words that it needs, takes off and puts there. -/
structure StackEffect where
  needs : Nat
  takes : Nat
  gives : Nat

def StackEffect.delta (effect : StackEffect) : Int := effect.gives - effect.takes

def Opcode.effect (op : Opcode) (operand : Word) : StackEffect :=
  ⟨op.needs operand, op.takes, op.gives⟩

def Interrupt.effect (code : Nat) : StackEffect := ⟨needs code, takes code, gives code⟩

/-- The instruction has an assigned opcode, and for an interrupt the code of a standard service. -/
inductive Instruction.HasEffect (table : Interrupt.Table) (i : Instruction) : StackEffect → Prop
  | operation {op} (hop : Opcode.ofByte? i.opcode = some op) (hint : op ≠ .int) :
      HasEffect table i (op.effect i.operand)
  | service {code service} (hop : Opcode.ofByte? i.opcode = some .int)
      (hget : table.get i.operand = .ok service) (hservice : Interrupt.Provides code service) :
      HasEffect table i (Interrupt.effect code)

/-- No operation takes more words than it needs. -/
theorem Opcode.takes_le_needs (op : Opcode) (operand : Word) : op.takes ≤ op.needs operand := by
  cases op with
  | dup => exact Nat.zero_le _
  | _ => exact Nat.le_refl _

/-- No service takes more words than it needs. -/
theorem Interrupt.takes_le_needs (code : Nat) : takes code ≤ needs code := by
  unfold needs
  split
  · exact Nat.zero_le 1
  · exact Nat.le_refl _

/-- No instruction takes more words than it needs. -/
theorem Instruction.HasEffect.takes_le_needs {table : Interrupt.Table} {i : Instruction}
    {effect : StackEffect} (h : i.HasEffect table effect) : effect.takes ≤ effect.needs := by
  cases h with
  | @operation op => exact op.takes_le_needs i.operand
  | @service code => exact Interrupt.takes_le_needs code

namespace Machine

open Interrupt

variable {table : Interrupt.Table} {op : Opcode} {operand : Word} {n : Nat} {m m' : Machine}

/-! ## Too few words -/

/-- Requiring more words than there are is a stack underflow. -/
theorem require_of_lt (hm : m.Roles) (h : m.stack.items.length < n) :
    require n m = .error .stackUnderflow m := by
  have hfault : m.stack.require n = .error .stackUnderflow := by
    rw [Stack.require, if_pos (by rw [← m.stack.height_eq]; exact h), hm.stack]
    rfl
  unfold require
  rw [get_bind, hfault]
  rfl

theorem peek_of_le {depth : Nat} (hm : m.Roles) (h : m.stack.items.length ≤ depth) :
    peek depth m = .error .stackUnderflow m := by
  have hfault : m.stack.peek depth = .error .stackUnderflow := by
    rw [Stack.peek, List.getElem?_eq_none h, hm.stack]
    rfl
  unfold peek
  rw [get_bind, hfault]
  rfl

theorem drop_of_lt (hm : m.Roles) (h : m.stack.items.length < n) :
    drop n m = .error .stackUnderflow m := by
  have hfault : m.stack.drop n = .error .stackUnderflow := by
    rw [Stack.drop, Stack.require, if_pos (by rw [← m.stack.height_eq]; exact h), hm.stack]
    rfl
  unfold drop
  rw [get_bind, hfault]
  rfl

/-- An operation counts or looks at the words it needs before it does anything else. -/
theorem perform_underflow (hm : m.Roles) (h : m.stack.items.length < op.needs operand) :
    perform table op operand m = .error .stackUnderflow m := by
  cases op with
  | pop => exact drop_of_lt hm h
  | load | loadPtr | pushArray | unary | jmpZero | jmpNotZero | dup =>
    exact bind_error_iff.2 (.inl (peek_of_le hm (Nat.le_of_lt_succ h)))
  | store | storePtr | loadArray | storeArray | binary | division | vcall | ret =>
    exact bind_error_iff.2 (.inl (require_of_lt hm h))
  | _ => exact absurd h (Nat.not_lt_zero _)

/-- A service that finds too few words is refused before anything changes. -/
theorem service_underflow {code : Nat} {service : Action Unit} (hservice : Provides code service)
    (hm : m.Roles) (h : m.stack.items.length < Interrupt.needs code) :
    service m = .error .stackUnderflow m := by
  cases hservice with
  | close | exit | malloc | free | link | unlink =>
    exact bind_error_iff.2 (.inl (peek_of_le hm (Nat.le_of_lt_succ h)))
  | openFile | write | symbol | read =>
    exact bind_error_iff.2 (.inl (require_of_lt hm h))
  | _ => exact absurd h (Nat.not_lt_zero _)

/-! ## Operations -/

/-- A branch needs its condition. -/
theorem enough_branch (onZero : Bool) : Enough 1 (perform.branch operand onZero) := by
  refine (retains_peek Nat.zero_lt_one).bind_enough fun condition => ?_
  refine retains_get.bind_enough fun s => ?_
  have htail (next : Word) : Enough 1 (do drop 1; jump next) :=
    enough_drop_modify (Nat.le_refl 1) _
  split
  · exact (retains_branchTarget operand).bind_enough htail
  · exact (retains_pure s.pc).bind_enough htail

/-- An operation that has the words it needs may fail, but not for want of words. -/
theorem enough_perform (hop : op ≠ .int) :
    Enough (op.needs operand) (perform table op operand) := by
  -- every depth that is looked at and every word that is taken off is among those needed
  cases op with
  | nop => exact (retains_pure ()).enough
  | push => exact (retains_push operand).enough
  | pop => exact enough_drop (Nat.le_refl 1)
  | load =>
    refine (retains_peek Nat.zero_lt_one).bind_enough fun width => ?_
    refine (retains_poolAddress operand).bind_enough fun a => ?_
    refine (retains_readMemory a width).bind_enough fun value => ?_
    exact (retains_replace value Nat.zero_lt_one).enough
  | store =>
    refine (retains_require (Nat.le_refl 2)).bind_enough fun _ => ?_
    refine (retains_peek Nat.zero_lt_two).bind_enough fun width => ?_
    refine (retains_peek Nat.one_lt_two).bind_enough fun value => ?_
    refine (retains_poolAddress operand).bind_enough fun a => ?_
    refine (retains_writeMemory a value width).bind_enough fun _ => ?_
    exact enough_drop (Nat.le_refl 2)
  | mallocPool =>
    refine retains_reservePool.bind_enough fun _ => ?_
    refine retains_activeModule.bind_enough fun module => ?_
    refine (retains_allocate _).bind_enough fun a => ?_
    exact enough_pushPool a
  | freePool =>
    refine retains_currentPool.bind_enough fun pool => ?_
    refine (retains_release pool).bind_enough fun _ => ?_
    exact enough_popPool
  | pushPtr =>
    refine (retains_poolAddress operand).bind_enough fun a => ?_
    exact (retains_push a).enough
  | loadPtr =>
    refine (retains_peek Nat.zero_lt_one).bind_enough fun a => ?_
    refine (retains_readMemory a operand).bind_enough fun value => ?_
    exact (retains_replace value Nat.zero_lt_one).enough
  | storePtr =>
    refine (retains_require (Nat.le_refl 2)).bind_enough fun _ => ?_
    refine (retains_peek Nat.one_lt_two).bind_enough fun a => ?_
    refine (retains_peek Nat.zero_lt_two).bind_enough fun value => ?_
    refine (retains_writeMemory a value operand).bind_enough fun _ => ?_
    exact enough_drop (Nat.le_refl 2)
  | dup =>
    refine (retains_peek (Nat.lt_succ_self operand.toNat)).bind_enough fun w => ?_
    exact (retains_push w).enough
  | pushArray =>
    refine (retains_peek Nat.zero_lt_one).bind_enough fun size => ?_
    refine (retains_allocate size).bind_enough fun a => ?_
    exact (retains_replace a Nat.zero_lt_one).enough
  | loadArray =>
    refine (retains_require (Nat.le_refl 2)).bind_enough fun _ => ?_
    refine (retains_peek Nat.one_lt_two).bind_enough fun base => ?_
    refine (retains_peek Nat.zero_lt_two).bind_enough fun index => ?_
    refine (retains_advance base index).bind_enough fun a => ?_
    refine (retains_readMemory a operand).bind_enough fun value => ?_
    refine (retains_replace value Nat.one_lt_two).bind_enough fun _ => ?_
    exact enough_drop (Nat.le_succ 1)
  | storeArray =>
    refine (retains_require (Nat.le_refl 3)).bind_enough fun _ => ?_
    refine (retains_peek (Nat.lt_succ_self 2)).bind_enough fun base => ?_
    refine (retains_peek (Nat.lt_add_of_pos_right Nat.zero_lt_two)).bind_enough fun index => ?_
    refine (retains_advance base index).bind_enough fun a => ?_
    refine (retains_peek (Nat.zero_lt_succ 2)).bind_enough fun value => ?_
    refine (retains_writeMemory a value operand).bind_enough fun _ => ?_
    exact enough_drop (Nat.le_refl 3)
  | binary op =>
    refine (retains_require (Nat.le_refl 2)).bind_enough fun _ => ?_
    refine (retains_peek Nat.one_lt_two).bind_enough fun a => ?_
    refine (retains_peek Nat.zero_lt_two).bind_enough fun b => ?_
    refine (retains_replace _ Nat.one_lt_two).bind_enough fun _ => ?_
    exact enough_drop (Nat.le_succ 1)
  | division op =>
    refine (retains_require (Nat.le_refl 2)).bind_enough fun _ => ?_
    refine (retains_peek Nat.zero_lt_two).bind_enough fun divisor => ?_
    -- a divisor of zero is found only after both words are
    split
    · exact enough_throw_bind (by decide) _
    · refine (retains_peek Nat.one_lt_two).bind_enough fun a => ?_
      refine (retains_peek Nat.zero_lt_two).bind_enough fun b => ?_
      refine (retains_replace _ Nat.one_lt_two).bind_enough fun _ => ?_
      exact enough_drop (Nat.le_succ 1)
  | unary op =>
    refine (retains_peek Nat.zero_lt_one).bind_enough fun a => ?_
    exact (retains_replace _ Nat.zero_lt_one).enough
  | int => exact absurd rfl hop
  | jmp =>
    refine (retains_branchTarget operand).bind_enough fun target => ?_
    exact (retains_jump target).enough
  | jmpZero => exact enough_branch true
  | jmpNotZero => exact enough_branch false
  | call =>
    refine (retains_reserve 2).bind_enough fun _ => ?_
    refine (retains_branchTarget operand).bind_enough fun target => ?_
    refine retains_get.bind_enough fun s => ?_
    refine (retains_push s.active).bind_enough fun _ => ?_
    refine (retains_push s.pc).bind_enough fun _ => ?_
    exact (retains_jump target).enough
  | vcall =>
    refine (retains_require (Nat.le_refl 2)).bind_enough fun _ => ?_
    refine (retains_peek Nat.one_lt_two).bind_enough fun index => ?_
    refine (retains_peek Nat.zero_lt_two).bind_enough fun target => ?_
    refine (retains_frameTarget index target).bind_enough fun _ => ?_
    refine retains_get.bind_enough fun s => ?_
    refine (retains_replace s.active Nat.one_lt_two).bind_enough fun _ => ?_
    refine (retains_replace s.pc Nat.zero_lt_two).bind_enough fun _ => ?_
    exact (retains_enter index target).enough
  | ret =>
    refine (retains_require (Nat.le_refl 2)).bind_enough fun _ => ?_
    refine (retains_peek Nat.one_lt_two).bind_enough fun index => ?_
    refine (retains_peek Nat.zero_lt_two).bind_enough fun target => ?_
    refine (retains_frameTarget index target).bind_enough fun _ => ?_
    exact enough_drop_modify (Nat.le_refl 2) _
  | loadMemory =>
    refine retains_activeModule.bind_enough fun module => ?_
    dsimp only
    split
    · exact enough_throw_bind (by decide) _
    · split
      · exact (retains_push _).enough
      · exact (retains_throw (by decide)).enough

/-! ## Services -/

theorem retains_transferLength (count size : Word) : Retains n (transferLength count size) :=
  .ite (retains_pure _) (retains_throw (by decide))

/-- Input that fails to arrive is no matter of the stack. -/
theorem retains_receive (handle buffer : Word) (length : Nat) :
    Retains n (receive handle buffer length) where
  enough m m' e _ _ h := by
    rcases receive_error h with ⟨rfl, -⟩ | ⟨-, bytes, host, hread, -⟩
    · decide
    · rcases Host.eq_of_read_fault hread with ⟨reason, rfl⟩
      exact nofun
  ok {m m' received} hm hn h := by
    rcases receive_ok h with ⟨-, bytes, host, -, -, rfl⟩
    exact ⟨⟨hm.stack, hm.pools⟩, hn⟩

theorem enough_openFile : Enough 2 openFile := by
  refine (retains_require (Nat.le_refl 2)).bind_enough fun _ => ?_
  refine (retains_peek Nat.one_lt_two).bind_enough fun path => ?_
  refine (retains_cString path).bind_enough fun pathText => ?_
  refine (retains_peek Nat.zero_lt_two).bind_enough fun mode => ?_
  refine (retains_cString mode).bind_enough fun modeText => ?_
  refine (retains_onHost fun h => by cases h).bind_enough fun handle => ?_
  refine (retains_replace handle Nat.one_lt_two).bind_enough fun _ => ?_
  exact enough_drop (Nat.le_succ 1)

theorem enough_write : Enough 4 write := by
  refine (retains_require (Nat.le_refl 4)).bind_enough fun _ => ?_
  refine (retains_peek (by decide)).bind_enough fun handle => ?_
  refine (retains_peek (by decide)).bind_enough fun count => ?_
  refine (retains_peek (by decide)).bind_enough fun size => ?_
  refine (retains_transferLength count size).bind_enough fun length => ?_
  refine (retains_peek (by decide)).bind_enough fun buffer => ?_
  have htail (data : Bytes) : Enough 4 (do onHost (Host.write handle data); drop 4) :=
    (retains_onHost Host.eq_of_write_error).bind_enough fun _ => enough_drop (Nat.le_refl 4)
  split
  · exact (retains_pure []).bind_enough htail
  · exact (retains_slice buffer length).bind_enough htail

theorem enough_symbol : Enough 2 symbol := by
  refine (retains_require (Nat.le_refl 2)).bind_enough fun _ => ?_
  refine (retains_peek Nat.one_lt_two).bind_enough fun index => ?_
  refine (retains_peek Nat.zero_lt_two).bind_enough fun name => ?_
  refine (retains_cString name).bind_enough fun text => ?_
  have hresolve : Retains 2 (do attempt ((← get).resolve index text)) :=
    retains_ask fun _ _ herror => resolve_ne_underflow herror
  refine hresolve.bind_enough fun address => ?_
  refine (retains_replace address Nat.one_lt_two).bind_enough fun _ => ?_
  exact enough_drop (Nat.le_succ 1)

theorem enough_read : Enough 4 read := by
  refine (retains_require (Nat.le_refl 4)).bind_enough fun _ => ?_
  refine (retains_peek (by decide)).bind_enough fun handle => ?_
  refine (retains_peek (by decide)).bind_enough fun size => ?_
  refine (retains_peek (by decide)).bind_enough fun count => ?_
  refine (retains_transferLength count size).bind_enough fun length => ?_
  refine (retains_peek (by decide)).bind_enough fun buffer => ?_
  have htail (received : Nat) :
      Enough 4 (do replace 3 (UInt64.ofNat (received / size.toNat)); drop 3) :=
    (retains_replace _ (by decide)).bind_enough fun _ => enough_drop (by decide)
  split
  · exact (retains_pure 0).bind_enough htail
  · exact (retains_receive handle buffer length).bind_enough htail

/-- A service that has the words it needs may fail, but not for want of words. -/
theorem enough_service {code : Nat} {service : Action Unit} (hservice : Provides code service) :
    Enough (Interrupt.needs code) service := by
  cases hservice with
  | stdout => exact (retains_push 1).enough
  | stdin => exact (retains_push 2).enough
  | stderr => exact (retains_push 3).enough
  | openFile => exact enough_openFile
  | write => exact enough_write
  | close =>
    refine (retains_peek Nat.zero_lt_one).bind_enough fun handle => ?_
    refine (retains_onHost Host.eq_of_close_error).bind_enough fun _ => ?_
    exact enough_drop (Nat.le_refl 1)
  | exit =>
    refine (retains_peek Nat.zero_lt_one).bind_enough fun code => ?_
    refine (retains_throw ?_).enough
    exact nofun
  | malloc =>
    refine (retains_peek Nat.zero_lt_one).bind_enough fun size => ?_
    refine (retains_allocate size).bind_enough fun a => ?_
    exact (retains_replace a Nat.zero_lt_one).enough
  | free =>
    refine (retains_peek Nat.zero_lt_one).bind_enough fun a => ?_
    refine (retains_release a).bind_enough fun _ => ?_
    exact enough_drop (Nat.le_refl 1)
  | link =>
    refine (retains_peek Nat.zero_lt_one).bind_enough fun path => ?_
    refine (retains_cString path).bind_enough fun text => ?_
    refine (retains_link _).bind_enough fun index => ?_
    exact (retains_replace index Nat.zero_lt_one).enough
  | unlink =>
    refine (retains_peek Nat.zero_lt_one).bind_enough fun index => ?_
    refine (retains_unlink index).bind_enough fun _ => ?_
    exact enough_drop (Nat.le_refl 1)
  | symbol => exact enough_symbol
  | read => exact enough_read

/-! ## Steps -/

/-- The height changes by what is given less what is taken. -/
theorem Exchanges.length_eq {taken given : Nat} (h : Exchanges taken given m m')
    (htaken : taken ≤ m.stack.items.length) :
    (m'.stack.items.length : Int) = m.stack.items.length + ((given : Int) - taken) := by
  rcases h with ⟨words, hwords, hitems⟩
  have hlength : m'.stack.items.length = given + (m.stack.items.length - taken) := by
    rw [hitems, List.length_append, List.length_drop, hwords]
  omega

/-- The instruction, once it is counted, is an action that keeps to its effect. -/
theorem exists_action {i : Instruction} {effect : StackEffect} (hfetch : fetch m = .ok i m)
    (heffect : i.HasEffect table effect) :
    ∃ x : Action Unit, step table m = x m.advanced ∧ Enough effect.needs x ∧
      (∀ {m : Machine}, m.Roles → m.stack.items.length < effect.needs →
        x m = .error .stackUnderflow m) ∧
      ∀ {m m' : Machine}, x m = .ok () m' → Exchanges effect.takes effect.gives m m' := by
  cases heffect with
  | @operation op hop hint =>
    exact ⟨perform table op i.operand, step_of_fetch hfetch hop, enough_perform hint,
      perform_underflow, fun hok => (performs_of_ok hint hok).exchanges⟩
  | @service code service hop hget hservice =>
    have hstep : step table m = service m.advanced := by
      rw [step_of_fetch hfetch hop, perform_int, hget]
    exact ⟨service, hstep, enough_service hservice, service_underflow hservice,
      fun hok => (serves_of_ok hservice hok).exchanges⟩

/-- An instruction underflows exactly when the evaluation stack holds fewer words than it needs,
whatever else the machine holds. When it succeeds, the height of the stack changes by what it gives
and takes, and the words beneath those that it takes are still there. The stacks of every machine
that was started have their roles (`roles_after`). -/
theorem stack_effect_exact {i : Instruction} {effect : StackEffect} (hroles : m.Roles)
    (hfetch : fetch m = .ok i m) (heffect : i.HasEffect table effect) :
    ((∃ m', step table m = .error .stackUnderflow m') ↔
      m.stack.items.length < effect.needs) ∧
    ∀ m', step table m = .ok () m' →
      (m'.stack.items.length : Int) = m.stack.items.length + effect.delta ∧
      ∃ given, given.length = effect.gives ∧
        m'.stack.items = given ++ m.stack.items.drop effect.takes := by
  rcases exists_action hfetch heffect with ⟨x, hstep, henough, hunderflow, hexchanges⟩
  have hadvanced : m.advanced.Roles := ⟨hroles.stack, hroles.pools⟩
  refine ⟨⟨?_, ?_⟩, ?_⟩
  · rintro ⟨m', hfault⟩
    rw [hstep] at hfault
    -- with enough words there is no underflow, for whatever reason the step fails
    by_contra hheight
    exact henough hadvanced (Nat.not_lt.1 hheight) hfault rfl
  · intro hheight
    exact ⟨m.advanced, hstep.trans (hunderflow hadvanced hheight)⟩
  · intro m' hok
    have hx : x m.advanced = .ok () m' := hstep.symm.trans hok
    -- a step that succeeds has found all the words it needs
    have hneeds : effect.needs ≤ m.stack.items.length := by
      by_contra hheight
      have hfault := hunderflow hadvanced (Nat.not_le.1 hheight)
      rw [hx] at hfault
      cases hfault
    have htakes : effect.takes ≤ m.stack.items.length := Nat.le_trans heffect.takes_le_needs hneeds
    have hexchange : Exchanges effect.takes effect.gives m.advanced m' := hexchanges hx
    exact ⟨hexchange.length_eq htakes, hexchange⟩

/-- A program duplicates the only word on the stack, and then asks for input with two words of the
four that it takes. -/
theorem stack_effect_exact_read :
    let program : Module := { instructions := #[.of .push 7, .of .dup 0, .of .int 12] }
    ∃ (first m m' : Machine), start program (Loader.registry []) {} {} = .ok first ∧
      m = first.after standard [.step] ∧ m' = first.after standard [.step, .step] ∧
      step standard m = .ok () m' ∧ (m'.stack.items.length : Int) = m.stack.items.length + 1 ∧
      m'.stack.items.length < Interrupt.needs 12 ∧
      ∃ m'', step standard m' = .error .stackUnderflow m'' := by
  intro program
  have hrun : ∃ (first m m' : Machine), start program (Loader.registry []) {} {} = .ok first ∧
      m = first.after standard [.step] ∧ m' = first.after standard [.step, .step] ∧
      fetch m = .ok (.of .dup 0) m ∧ fetch m' = .ok (.of .int 12) m' ∧
      step standard m = .ok () m' ∧ m'.stack.items.length = 2 :=
    ⟨_, _, _, rfl, rfl, rfl, rfl, rfl, rfl, rfl⟩
  rcases hrun with ⟨first, m, m', hstart, hm, hm', hdup, hread, hstep, hheight⟩
  have hroles : m.Roles := by
    rw [hm]
    exact roles_after isStandard_standard hstart _
  have hroles' : m'.Roles := by
    rw [hm']
    exact roles_after isStandard_standard hstart _
  have hservice : standard.get 12 = .ok Interrupt.read := by
    rw [Table.get_ok_iff, standard, join_getElem?_foldl_install services 0 .empty (by decide)]
    rfl
  have hshort : m'.stack.items.length < Interrupt.needs 12 := by
    rw [hheight]
    decide
  have hgrows := (stack_effect_exact hroles hdup (.operation rfl (by decide))).2 m' hstep
  have hfails := (stack_effect_exact hroles' hread (.service rfl hservice .read)).1.2 hshort
  exact ⟨first, m, m', hstart, hm, hm', hstep, hgrows.1, hshort, hfails⟩

end Machine
end StackMachine
