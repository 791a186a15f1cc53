import StackMachine.Proofs.Service

/-!
# Composition — properties that carry over from actions to instructions

Operations and services are sequences of a few actions. A property that these actions have, and that
sequences keep, is therefore one of all operations, and of all services once linking and unlinking
have it.

* `Machine.Composes` — the actions that have to be looked at for such a property;
* `Machine.Composes.perform`, `Machine.Composes.service` — what follows for the rest.
-/

namespace StackMachine
namespace Machine

/-- A property of actions that is kept by sequences and that these actions have: those on the
evaluation stack, those on the host, and those that leave the evaluation stack, the loader and the
module table alone. -/
structure Composes (P : {α : Type} → Action α → Prop) : Prop where
  bind : ∀ {α β : Type} {x : Action α} {f : α → Action β}, P x → (∀ a, P (f a)) → P (x >>= f)
  attempt : ∀ {α : Type} (r : Except Fault α), P (attempt r)
  require : ∀ n, P (require n)
  reserve : ∀ n, P (reserve n)
  peek : ∀ depth, P (peek depth)
  push : ∀ w, P (push w)
  replace : ∀ depth w, P (replace depth w)
  drop : ∀ n, P (drop n)
  onHost : ∀ {α : Type} (f : EStateM Fault Host α), P (onHost f)
  /-- What the rest of a sequence learns from the machine may be anything but the stack. -/
  learn : ∀ {α : Type} {f : Machine → Action α},
    (∀ m stack, f { m with stack } = f m) → (∀ m, P (f m)) → P (get >>= f)
  change : ∀ {α : Type} {f : Machine → α × Machine},
    (∀ m stack, f { m with stack } = ((f m).1, { (f m).2 with stack })) →
    (∀ m, (f m).2.loader = m.loader ∧ (f m).2.modules = m.modules) → P (modifyGet f)

namespace Composes

variable {P : {α : Type} → Action α → Prop} {α : Type}

/-- A result without an action is an attempt that succeeds. -/
theorem pure (h : Composes P) (a : α) : P (pure a : Action α) := h.attempt (.ok a)

/-- A fault is an attempt that fails. -/
theorem throw (h : Composes P) (e : Fault) : P (throw e : Action α) := h.attempt (.error e)

theorem ite {c : Prop} [Decidable c] {x y : Action α} (hx : P x) (hy : P y) :
    P (if c then x else y) := by
  split
  · exact hx
  · exact hy

/-- A change that does not look at the evaluation stack, and leaves the loader and the module table
alone. -/
theorem modify (h : Composes P) {f : Machine → Machine}
    (hf : ∀ m stack, f { m with stack } = { f m with stack })
    (hkeeps : ∀ m, (f m).loader = m.loader ∧ (f m).modules = m.modules) : P (modify f) :=
  h.change (fun m stack => by rw [hf]) hkeeps

/-! ## Actions -/

theorem jump (h : Composes P) (target : Word) : P (jump target) :=
  h.modify (fun _ _ => rfl) fun _ => ⟨rfl, rfl⟩

theorem enter (h : Composes P) (index address : Word) : P (enter index address) :=
  h.modify (fun _ _ => rfl) fun _ => ⟨rfl, rfl⟩

theorem reservePool (h : Composes P) : P reservePool :=
  h.learn (fun _ _ => rfl) fun _ => h.attempt _

theorem currentPool (h : Composes P) : P currentPool :=
  h.learn (fun _ _ => rfl) fun _ => h.attempt _

/-- The pool stack is not the evaluation stack. -/
theorem pushPool (h : Composes P) (a : Word) : P (pushPool a) := by
  refine h.learn (fun _ _ => rfl) fun _ => ?_
  refine h.bind (h.attempt _) fun pools => ?_
  exact h.modify (fun _ _ => rfl) fun _ => ⟨rfl, rfl⟩

theorem popPool (h : Composes P) : P popPool := by
  refine h.learn (fun _ _ => rfl) fun _ => ?_
  refine h.bind (h.attempt _) fun ⟨_, pools⟩ => ?_
  exact h.modify (fun _ _ => rfl) fun _ => ⟨rfl, rfl⟩

theorem advance (h : Composes P) (a distance : Word) : P (advance a distance) := by
  unfold Machine.advance
  cases Address.advance? a distance with
  | none => exact h.throw _
  | some b => exact h.pure b

theorem poolAddress (h : Composes P) (offset : Word) : P (poolAddress offset) :=
  h.bind h.currentPool fun _ => h.advance _ _

theorem readMemory (h : Composes P) (a width : Word) : P (readMemory a width) :=
  h.learn (fun _ _ => rfl) fun _ => h.attempt _

/-- Guest memory is not the evaluation stack. -/
theorem writeMemory (h : Composes P) (a value width : Word) : P (writeMemory a value width) := by
  refine h.learn (fun _ _ => rfl) fun _ => ite ?_ (h.throw _)
  exact h.modify (fun _ _ => rfl) fun _ => ⟨rfl, rfl⟩

theorem allocate (h : Composes P) (size : Word) : P (allocate size) :=
  h.change (fun _ _ => rfl) fun _ => ⟨rfl, rfl⟩

/-- Giving an address back has to do with guest memory only. -/
theorem release (h : Composes P) (a : Word) : P (release a) := by
  refine ite (h.pure _) (h.learn (fun _ _ => rfl) fun _ => ite ?_ ?_)
  · exact h.modify (fun _ _ => rfl) fun _ => ⟨rfl, rfl⟩
  · exact h.learn (fun _ _ => rfl) fun _ => h.attempt _

theorem slice (h : Composes P) (a : Word) (length : Nat) : P (slice a length) :=
  h.learn (fun _ _ => rfl) fun _ => h.attempt _

theorem cString (h : Composes P) (a : Word) : P (cString a) :=
  h.learn (fun _ _ => rfl) fun _ => h.attempt _

theorem activeModule (h : Composes P) : P activeModule :=
  h.learn (fun _ _ => rfl) fun _ => h.attempt _

theorem branchTarget (h : Composes P) (target : Word) : P (branchTarget target) :=
  h.bind h.activeModule fun _ => ite (h.pure _) (h.throw _)

theorem frameTarget (h : Composes P) (index address : Word) : P (frameTarget index address) :=
  h.learn (fun _ _ => rfl) fun _ => h.bind (h.attempt _) fun _ => ite (h.pure _) (h.throw _)

/-! ## Operations -/

/-- A conditional branch takes its condition off and goes on somewhere. -/
theorem branch (h : Composes P) (operand : Word) (onZero : Bool) :
    P (perform.branch operand onZero) := by
  refine h.bind (h.peek 0) fun condition => ?_
  refine h.learn (fun _ _ => rfl) fun m => ?_
  have htail (next : Word) : P (do Machine.drop 1; Machine.jump next) :=
    h.bind (h.drop 1) fun _ => h.jump next
  split
  · exact h.bind (h.branchTarget operand) htail
  · exact h.bind (h.pure m.pc) htail

/-- Every operation but an interrupt is made of these actions. -/
theorem perform (h : Composes P) {table : Interrupt.Table} {op : Opcode} (operand : Word)
    (hop : op ≠ .int) : P (perform table op operand) := by
  -- each case follows the operation action by action
  cases op with
  | nop => exact h.pure ()
  | push => exact h.push operand
  | pop => exact h.drop 1
  | load =>
    refine h.bind (h.peek 0) fun width => ?_
    refine h.bind (h.poolAddress operand) fun a => ?_
    refine h.bind (h.readMemory a width) fun value => ?_
    exact h.replace 0 value
  | store =>
    refine h.bind (h.require 2) fun _ => ?_
    refine h.bind (h.peek 0) fun width => ?_
    refine h.bind (h.peek 1) fun value => ?_
    refine h.bind (h.poolAddress operand) fun a => ?_
    refine h.bind (h.writeMemory a value width) fun _ => ?_
    exact h.drop 2
  | mallocPool =>
    refine h.bind h.reservePool fun _ => ?_
    refine h.bind h.activeModule fun module => ?_
    refine h.bind (h.allocate _) fun a => ?_
    exact h.pushPool a
  | freePool =>
    refine h.bind h.currentPool fun pool => ?_
    refine h.bind (h.release pool) fun _ => ?_
    exact h.popPool
  | pushPtr =>
    refine h.bind (h.poolAddress operand) fun a => ?_
    exact h.push a
  | loadPtr =>
    refine h.bind (h.peek 0) fun a => ?_
    refine h.bind (h.readMemory a operand) fun value => ?_
    exact h.replace 0 value
  | storePtr =>
    refine h.bind (h.require 2) fun _ => ?_
    refine h.bind (h.peek 1) fun a => ?_
    refine h.bind (h.peek 0) fun value => ?_
    refine h.bind (h.writeMemory a value operand) fun _ => ?_
    exact h.drop 2
  | dup =>
    refine h.bind (h.peek operand.toNat) fun w => ?_
    exact h.push w
  | pushArray =>
    refine h.bind (h.peek 0) fun size => ?_
    refine h.bind (h.allocate size) fun a => ?_
    exact h.replace 0 a
  | loadArray =>
    refine h.bind (h.require 2) fun _ => ?_
    refine h.bind (h.peek 1) fun base => ?_
    refine h.bind (h.peek 0) fun index => ?_
    refine h.bind (h.advance base index) fun a => ?_
    refine h.bind (h.readMemory a operand) fun value => ?_
    refine h.bind (h.replace 1 value) fun _ => ?_
    exact h.drop 1
  | storeArray =>
    refine h.bind (h.require 3) fun _ => ?_
    refine h.bind (h.peek 2) fun base => ?_
    refine h.bind (h.peek 1) fun index => ?_
    refine h.bind (h.advance base index) fun a => ?_
    refine h.bind (h.peek 0) fun value => ?_
    refine h.bind (h.writeMemory a value operand) fun _ => ?_
    exact h.drop 3
  | binary op =>
    refine h.bind (h.require 2) fun _ => ?_
    refine h.bind (h.peek 1) fun a => ?_
    refine h.bind (h.peek 0) fun b => ?_
    refine h.bind (h.replace 1 _) fun _ => ?_
    exact h.drop 1
  | division op =>
    refine h.bind (h.require 2) fun _ => ?_
    refine h.bind (h.peek 0) fun divisor => ?_
    -- the check comes before the division, which is the same with and without it
    have hdivide : P (do
        Machine.replace 1 (op.eval (← Machine.peek 1) (← Machine.peek 0)); Machine.drop 1) := by
      refine h.bind (h.peek 1) fun a => ?_
      refine h.bind (h.peek 0) fun b => ?_
      refine h.bind (h.replace 1 _) fun _ => ?_
      exact h.drop 1
    split
    · exact h.bind (h.throw _) fun _ => hdivide
    · exact hdivide
  | unary op =>
    refine h.bind (h.peek 0) fun a => ?_
    exact h.replace 0 _
  | int => exact absurd rfl hop
  | jmp =>
    refine h.bind (h.branchTarget operand) fun target => ?_
    exact h.jump target
  | jmpZero => exact h.branch operand true
  | jmpNotZero => exact h.branch operand false
  | call =>
    refine h.bind (h.reserve 2) fun _ => ?_
    refine h.bind (h.branchTarget operand) fun target => ?_
    refine h.learn (fun _ _ => rfl) fun m => ?_
    refine h.bind (h.push m.active) fun _ => ?_
    refine h.bind (h.push m.pc) fun _ => ?_
    exact h.jump target
  | vcall =>
    refine h.bind (h.require 2) fun _ => ?_
    refine h.bind (h.peek 1) fun index => ?_
    refine h.bind (h.peek 0) fun target => ?_
    refine h.bind (h.frameTarget index target) fun _ => ?_
    refine h.learn (fun _ _ => rfl) fun m => ?_
    refine h.bind (h.replace 1 m.active) fun _ => ?_
    refine h.bind (h.replace 0 m.pc) fun _ => ?_
    exact h.enter index target
  | ret =>
    refine h.bind (h.require 2) fun _ => ?_
    refine h.bind (h.peek 1) fun index => ?_
    refine h.bind (h.peek 0) fun target => ?_
    refine h.bind (h.frameTarget index target) fun _ => ?_
    refine h.bind (h.drop 2) fun _ => ?_
    exact h.enter index target
  | loadMemory =>
    refine h.bind h.activeModule fun module => ?_
    dsimp only
    cases module.memory.base? with
    | none =>
      refine ite ?_ (h.throw _)
      exact h.bind (h.throw _) fun _ => h.throw _
    | some base =>
      refine ite ?_ (h.push _)
      exact h.bind (h.throw _) fun _ => h.push _

/-! ## Services -/

open Interrupt

theorem transferLength (h : Composes P) (count size : Word) : P (transferLength count size) :=
  ite (h.pure _) (h.throw _)

/-- Input goes from the host to guest memory. -/
theorem receive (h : Composes P) (handle buffer : Word) (length : Nat) :
    P (receive handle buffer length) := by
  refine h.learn (fun _ _ => rfl) fun m => ite ?_ (h.throw _)
  refine h.bind (h.onHost _) fun ⟨bytes, fault⟩ => ?_
  refine h.bind (h.modify (fun _ _ => rfl) fun _ => ⟨rfl, rfl⟩) fun _ => ?_
  cases fault with
  | none => exact h.pure _
  | some e => exact h.throw e

/-- Linking and unlinking are left to the services that do it. -/
theorem service (h : Composes P) {code : Nat} {service : Action Unit}
    (hservice : Provides code service) (hlink : code = 9 → ∀ path, P (link path))
    (hunlink : code = 10 → ∀ index, P (unlink index)) : P service := by
  cases hservice with
  | stdout => exact h.push 1
  | stdin => exact h.push 2
  | stderr => exact h.push 3
  | openFile =>
    refine h.bind (h.require 2) fun _ => ?_
    refine h.bind (h.peek 1) fun path => ?_
    refine h.bind (h.cString path) fun pathText => ?_
    refine h.bind (h.peek 0) fun mode => ?_
    refine h.bind (h.cString mode) fun modeText => ?_
    refine h.bind (h.onHost _) fun handle => ?_
    refine h.bind (h.replace 1 handle) fun _ => ?_
    exact h.drop 1
  | write =>
    refine h.bind (h.require 4) fun _ => ?_
    refine h.bind (h.peek 3) fun handle => ?_
    refine h.bind (h.peek 2) fun count => ?_
    refine h.bind (h.peek 1) fun size => ?_
    refine h.bind (h.transferLength count size) fun length => ?_
    refine h.bind (h.peek 0) fun buffer => ?_
    have htail (data : Bytes) :
        P (do Machine.onHost (Host.write handle data); Machine.drop 4) :=
      h.bind (h.onHost _) fun _ => h.drop 4
    split
    · exact h.bind (h.pure []) htail
    · exact h.bind (h.slice buffer length) htail
  | close =>
    refine h.bind (h.peek 0) fun handle => ?_
    refine h.bind (h.onHost _) fun _ => ?_
    exact h.drop 1
  | exit =>
    refine h.bind (h.peek 0) fun code => ?_
    exact h.throw _
  | malloc =>
    refine h.bind (h.peek 0) fun size => ?_
    refine h.bind (h.allocate size) fun a => ?_
    exact h.replace 0 a
  | free =>
    refine h.bind (h.peek 0) fun a => ?_
    refine h.bind (h.release a) fun _ => ?_
    exact h.drop 1
  | link =>
    refine h.bind (h.peek 0) fun path => ?_
    refine h.bind (h.cString path) fun text => ?_
    refine h.bind (hlink rfl _) fun index => ?_
    exact h.replace 0 index
  | unlink =>
    refine h.bind (h.peek 0) fun index => ?_
    refine h.bind (hunlink rfl index) fun _ => ?_
    exact h.drop 1
  | symbol =>
    refine h.bind (h.require 2) fun _ => ?_
    refine h.bind (h.peek 1) fun index => ?_
    refine h.bind (h.peek 0) fun name => ?_
    refine h.bind (h.cString name) fun text => ?_
    refine h.learn (fun _ _ => rfl) fun m => ?_
    refine h.bind (h.attempt _) fun address => ?_
    refine h.bind (h.replace 1 address) fun _ => ?_
    exact h.drop 1
  | read =>
    refine h.bind (h.require 4) fun _ => ?_
    refine h.bind (h.peek 3) fun handle => ?_
    refine h.bind (h.peek 1) fun size => ?_
    refine h.bind (h.peek 2) fun count => ?_
    refine h.bind (h.transferLength count size) fun length => ?_
    refine h.bind (h.peek 0) fun buffer => ?_
    have htail (received : Nat) : P (do
        Machine.replace 3 (UInt64.ofNat (received / size.toNat)); Machine.drop 3) :=
      h.bind (h.replace 3 _) fun _ => h.drop 3
    split
    · exact h.bind (h.pure 0) htail
    · exact h.bind (h.receive handle buffer length) htail

end Composes
end Machine
end StackMachine
