import StackMachine.Machine.Step
import StackMachine.Proofs.Action

/-!
# Instruction — the rules of the instruction set

`Machine.Performs` states, one rule for each operation, when an operation other than an interrupt
succeeds and which machine it leaves. The stack is read top first: a rule with the stack
`b :: a :: rest` finds `b` on top.

* `Machine.performs_of_ok` — an operation that succeeds follows its rule;
* `Machine.perform_clean` — an operation that faults leaves the guest as it was.
-/

namespace StackMachine
namespace Machine

/-! ## Rules -/

/-- Takes the condition off the stack and goes on at `target` if its being zero is as wanted. -/
inductive Branches (onZero : Bool) (target : Word) (m : Machine) : Machine → Prop
  | taken {condition rest module} (hitems : m.stack.items = condition :: rest)
      (hcondition : Word.isZero condition = onZero)
      (hmodule : m.module m.active = .ok module) (htarget : module.contains target = true) :
      Branches onZero target m { m with stack := m.stack.withItems rest, pc := target }
  | passed {condition rest} (hitems : m.stack.items = condition :: rest)
      (hcondition : Word.isZero condition ≠ onZero) :
      Branches onZero target m { m with stack := m.stack.withItems rest }

/-- What an operation other than an interrupt does when it succeeds. -/
inductive Performs (operand : Word) (m : Machine) : Opcode → Machine → Prop
  | nop : Performs operand m .nop m
  | push (hroom : m.stack.items.length < m.stack.capacity) :
      Performs operand m .push
        { m with stack := m.stack.withItems (operand :: m.stack.items) }
  | pop {w rest} (hitems : m.stack.items = w :: rest) :
      Performs operand m .pop { m with stack := m.stack.withItems rest }
  | load {width rest pool pools a value} (hitems : m.stack.items = width :: rest)
      (hpools : m.pools.items = pool :: pools) (haddress : Address.advance? pool operand = some a)
      (hread : m.heap.read a width = .ok value) :
      Performs operand m .load { m with stack := m.stack.withItems (value :: rest) }
  | store {width value rest pool pools a} (hitems : m.stack.items = width :: value :: rest)
      (hpools : m.pools.items = pool :: pools) (haddress : Address.advance? pool operand = some a)
      (hwritable : m.heap.writable a width = true) :
      Performs operand m .store
        { m with heap := m.heap.store a value width, stack := m.stack.withItems rest }
  | mallocPool {module} (hroom : m.pools.items.length < m.pools.capacity)
      (hmodule : m.module m.active = .ok module) :
      Performs operand m .mallocPool
        { m with
          heap := (m.heap.allocate (module.pool.get operand).toUInt64).2
          pools := m.pools.withItems
            ((m.heap.allocate (module.pool.get operand).toUInt64).1 :: m.pools.items) }
  | freePool {pool pools heap} (hpools : m.pools.items = pool :: pools)
      (hrelease : m.heap.release pool = .ok heap) :
      Performs operand m .freePool { m with heap, pools := m.pools.withItems pools }
  | pushPtr {pool pools a} (hpools : m.pools.items = pool :: pools)
      (haddress : Address.advance? pool operand = some a)
      (hroom : m.stack.items.length < m.stack.capacity) :
      Performs operand m .pushPtr { m with stack := m.stack.withItems (a :: m.stack.items) }
  | loadPtr {a rest value} (hitems : m.stack.items = a :: rest)
      (hread : m.heap.read a operand = .ok value) :
      Performs operand m .loadPtr { m with stack := m.stack.withItems (value :: rest) }
  | storePtr {value a rest} (hitems : m.stack.items = value :: a :: rest)
      (hwritable : m.heap.writable a operand = true) :
      Performs operand m .storePtr
        { m with heap := m.heap.store a value operand, stack := m.stack.withItems rest }
  | dup {w} (hitem : m.stack.items[operand.toNat]? = some w)
      (hroom : m.stack.items.length < m.stack.capacity) :
      Performs operand m .dup { m with stack := m.stack.withItems (w :: m.stack.items) }
  | pushArray {size rest} (hitems : m.stack.items = size :: rest) :
      Performs operand m .pushArray
        { m with
          heap := (m.heap.allocate size).2
          stack := m.stack.withItems ((m.heap.allocate size).1 :: rest) }
  | loadArray {index base rest a value} (hitems : m.stack.items = index :: base :: rest)
      (haddress : Address.advance? base index = some a)
      (hread : m.heap.read a operand = .ok value) :
      Performs operand m .loadArray { m with stack := m.stack.withItems (value :: rest) }
  | storeArray {value index base rest a} (hitems : m.stack.items = value :: index :: base :: rest)
      (haddress : Address.advance? base index = some a)
      (hwritable : m.heap.writable a operand = true) :
      Performs operand m .storeArray
        { m with heap := m.heap.store a value operand, stack := m.stack.withItems rest }
  | binary {op a b rest} (hitems : m.stack.items = b :: a :: rest) :
      Performs operand m (.binary op) { m with stack := m.stack.withItems (op.eval a b :: rest) }
  | division {op a b rest} (hitems : m.stack.items = b :: a :: rest)
      (hdivisor : op.refuses b = false) :
      Performs operand m (.division op) { m with stack := m.stack.withItems (op.eval a b :: rest) }
  | unary {op a rest} (hitems : m.stack.items = a :: rest) :
      Performs operand m (.unary op) { m with stack := m.stack.withItems (op.eval a :: rest) }
  | jmp {module} (hmodule : m.module m.active = .ok module)
      (htarget : module.contains operand = true) :
      Performs operand m .jmp { m with pc := operand }
  | jmpZero {m'} (hbranch : Branches true operand m m') : Performs operand m .jmpZero m'
  | jmpNotZero {m'} (hbranch : Branches false operand m m') : Performs operand m .jmpNotZero m'
  | call {module} (hroom : m.stack.items.length + 2 ≤ m.stack.capacity)
      (hmodule : m.module m.active = .ok module) (htarget : module.contains operand = true) :
      Performs operand m .call
        { m with stack := m.stack.withItems (m.pc :: m.active :: m.stack.items), pc := operand }
  | vcall {target index rest module} (hitems : m.stack.items = target :: index :: rest)
      (hmodule : m.module index = .ok module) (htarget : module.contains target = true) :
      Performs operand m .vcall
        { m with
          stack := m.stack.withItems (m.pc :: m.active :: rest)
          active := index
          pc := target }
  | ret {target index rest module} (hitems : m.stack.items = target :: index :: rest)
      (hmodule : m.module index = .ok module) (htarget : module.contains target = true) :
      Performs operand m .ret
        { m with stack := m.stack.withItems rest, active := index, pc := target }
  | loadMemory {module base} (hmodule : m.module m.active = .ok module)
      (hoffset : operand.toNat < module.memory.length) (hbase : module.memory.base? = some base)
      (hroom : m.stack.items.length < m.stack.capacity) :
      Performs operand m .loadMemory
        { m with stack := m.stack.withItems ((base + operand) :: m.stack.items) }

variable {table : Interrupt.Table} {op : Opcode} {operand : Word} {m m' : Machine}

/-! ## Successful operations -/

theorem cons_of_peek {l : List Word} {a : Word} (h : l[0]? = some a) : ∃ rest, l = a :: rest := by
  cases l with
  | nil => simp at h
  | cons b rest => exact ⟨rest, by simpa using h⟩

theorem cons_cons_of_peek {l : List Word} {a b : Word} (ha : l[0]? = some a) (hb : l[1]? = some b) :
    ∃ rest, l = a :: b :: rest := by
  rcases cons_of_peek ha with ⟨rest, rfl⟩
  rcases cons_of_peek (by simpa using hb) with ⟨rest, rfl⟩
  exact ⟨rest, rfl⟩

/-- A branch that succeeds goes to its target or falls through. -/
theorem branches_of_ok {onZero : Bool} (h : perform.branch operand onZero m = .ok () m') :
    Branches onZero operand m m' := by
  simp only [perform.branch, bind_ok_iff, peek_ok_iff, get_bind, and_assoc, exists_and_left,
    exists_eq_left] at h
  rcases h with ⟨condition, hcondition, h⟩
  rcases cons_of_peek hcondition with ⟨rest, hitems⟩
  split at h
  next htaken =>
    simp only [bind_ok_iff, branchTarget_ok_iff, drop_ok_iff, jump_ok_iff, and_assoc,
      exists_and_left, exists_eq_left, exists_const] at h
    rcases h with ⟨⟨module, hmodule, htarget⟩, -, rfl⟩
    simp only [hitems]
    exact .taken hitems (by simpa using htaken) hmodule htarget
  next hpassed =>
    simp only [bind_ok_iff, pure_ok_iff, drop_ok_iff, jump_ok_iff, and_assoc, exists_and_left,
      exists_eq_left, exists_const] at h
    rcases h with ⟨-, rfl⟩
    simp only [hitems]
    exact .passed hitems (by simpa using hpassed)

/-- What an operation has done when it succeeds. -/
theorem performs_of_ok (hop : op ≠ .int) (h : perform table op operand m = .ok () m') :
    Performs operand m op m' := by
  -- each case opens the actions of the operation in order and then reads the stack off the peeks
  cases op with
  | nop =>
    rcases pure_ok_iff.1 h with ⟨-, rfl⟩
    exact .nop
  | push =>
    rcases push_ok_iff.1 h with ⟨hroom, rfl⟩
    exact .push hroom
  | pop =>
    rcases drop_ok_iff.1 h with ⟨hitems, rfl⟩
    rcases List.exists_cons_of_length_pos hitems with ⟨w, rest, hitems⟩
    simp only [hitems]
    exact .pop hitems
  | load =>
    simp only [perform, bind_ok_iff, peek_ok_iff, poolAddress_ok_iff, readMemory_ok_iff,
      replace_ok_iff, and_assoc, exists_and_left, exists_eq_left] at h
    rcases h with ⟨width, hwidth, a, ⟨pool, hpool, ha⟩, value, hread, -, rfl⟩
    rcases cons_of_peek hwidth with ⟨rest, hitems⟩
    rcases cons_of_peek hpool with ⟨pools, hpools⟩
    simp only [hitems]
    exact .load hitems hpools ha hread
  | store =>
    simp only [perform, bind_ok_iff, require_ok_iff, peek_ok_iff, poolAddress_ok_iff,
      writeMemory_ok_iff, drop_ok_iff, and_assoc, exists_and_left, exists_eq_left,
      exists_const] at h
    rcases h with ⟨-, width, hwidth, value, hvalue, a, ⟨pool, hpool, ha⟩, hwritable, -, rfl⟩
    rcases cons_cons_of_peek hwidth hvalue with ⟨rest, hitems⟩
    rcases cons_of_peek hpool with ⟨pools, hpools⟩
    simp only [hitems]
    exact .store hitems hpools ha hwritable
  | mallocPool =>
    simp only [perform, bind_ok_iff, reservePool_ok_iff, activeModule_ok_iff, allocate_ok_iff,
      pushPool_ok_iff, and_assoc, exists_and_left, exists_eq_left, exists_const] at h
    rcases h with ⟨hroom, module, hmodule, -, rfl⟩
    exact .mallocPool hroom hmodule
  | freePool =>
    simp only [perform, bind_ok_iff, currentPool_ok_iff, release_ok_iff, popPool_ok_iff, and_assoc,
      exists_and_left, exists_eq_left, exists_const] at h
    rcases h with ⟨pool, hpool, _, ⟨heap, hrelease, rfl⟩, _, pools, hpools, rfl⟩
    rcases cons_of_peek hpool with ⟨_, hcons⟩
    rcases List.cons.inj (hpools.symm.trans hcons) with ⟨rfl, rfl⟩
    exact .freePool hpools hrelease
  | pushPtr =>
    simp only [perform, bind_ok_iff, poolAddress_ok_iff, push_ok_iff, and_assoc, exists_and_left,
      exists_eq_left] at h
    rcases h with ⟨a, ⟨pool, hpool, ha⟩, hroom, rfl⟩
    rcases cons_of_peek hpool with ⟨pools, hpools⟩
    exact .pushPtr hpools ha hroom
  | loadPtr =>
    simp only [perform, bind_ok_iff, peek_ok_iff, readMemory_ok_iff, replace_ok_iff, and_assoc,
      exists_and_left, exists_eq_left] at h
    rcases h with ⟨a, ha, value, hread, -, rfl⟩
    rcases cons_of_peek ha with ⟨rest, hitems⟩
    simp only [hitems]
    exact .loadPtr hitems hread
  | storePtr =>
    simp only [perform, bind_ok_iff, require_ok_iff, peek_ok_iff, writeMemory_ok_iff, drop_ok_iff,
      and_assoc, exists_and_left, exists_eq_left, exists_const] at h
    rcases h with ⟨-, a, ha, value, hvalue, hwritable, -, rfl⟩
    rcases cons_cons_of_peek hvalue ha with ⟨rest, hitems⟩
    simp only [hitems]
    exact .storePtr hitems hwritable
  | dup =>
    simp only [perform, bind_ok_iff, peek_ok_iff, push_ok_iff, and_assoc, exists_and_left,
      exists_eq_left] at h
    rcases h with ⟨w, hitem, hroom, rfl⟩
    exact .dup hitem hroom
  | pushArray =>
    simp only [perform, bind_ok_iff, peek_ok_iff, allocate_ok_iff, replace_ok_iff, and_assoc,
      exists_and_left, exists_eq_left] at h
    rcases h with ⟨size, hsize, -, rfl⟩
    rcases cons_of_peek hsize with ⟨rest, hitems⟩
    simp only [hitems]
    exact .pushArray hitems
  | loadArray =>
    simp only [perform, bind_ok_iff, require_ok_iff, peek_ok_iff, advance_ok_iff,
      readMemory_ok_iff, replace_ok_iff, drop_ok_iff, and_assoc, exists_and_left, exists_eq_left,
      exists_const] at h
    rcases h with ⟨-, base, hbase, index, hindex, a, ha, value, hread, -, -, rfl⟩
    rcases cons_cons_of_peek hindex hbase with ⟨rest, hitems⟩
    simp only [hitems]
    exact .loadArray hitems ha hread
  | storeArray =>
    simp only [perform, bind_ok_iff, require_ok_iff, peek_ok_iff, advance_ok_iff,
      writeMemory_ok_iff, drop_ok_iff, and_assoc, exists_and_left, exists_eq_left,
      exists_const] at h
    rcases h with ⟨-, base, hbase, index, hindex, a, ha, value, hvalue, hwritable, -, rfl⟩
    rcases cons_cons_of_peek hvalue hindex with ⟨_, hitems⟩
    rcases cons_of_peek (l := _) (by simpa [hitems] using hbase) with ⟨rest, rfl⟩
    simp only [hitems]
    exact .storeArray hitems ha hwritable
  | binary op =>
    simp only [perform, bind_ok_iff, require_ok_iff, peek_ok_iff, replace_ok_iff, drop_ok_iff,
      and_assoc, exists_and_left, exists_eq_left, exists_const] at h
    rcases h with ⟨-, a, ha, b, hb, -, -, rfl⟩
    rcases cons_cons_of_peek hb ha with ⟨rest, hitems⟩
    simp only [hitems]
    exact .binary hitems
  | division op =>
    simp only [perform, bind_ok_iff, require_ok_iff, peek_ok_iff, and_assoc, exists_and_left,
      exists_eq_left, exists_const] at h
    rcases h with ⟨-, b, hb, h⟩
    split at h
    next => simp at h
    next hdivisor =>
      simp only [bind_ok_iff, peek_ok_iff, replace_ok_iff, drop_ok_iff, hb, Option.some.injEq,
        and_assoc, exists_and_left, exists_eq_left, exists_eq_left', exists_const] at h
      rcases h with ⟨a, ha, -, -, rfl⟩
      rcases cons_cons_of_peek hb ha with ⟨rest, hitems⟩
      simp only [hitems]
      exact .division hitems (by simpa using hdivisor)
  | unary op =>
    simp only [perform, bind_ok_iff, peek_ok_iff, replace_ok_iff, and_assoc, exists_and_left,
      exists_eq_left] at h
    rcases h with ⟨a, ha, -, rfl⟩
    rcases cons_of_peek ha with ⟨rest, hitems⟩
    simp only [hitems]
    exact .unary hitems
  | int => exact absurd rfl hop
  | jmp =>
    simp only [perform, bind_ok_iff, branchTarget_ok_iff, jump_ok_iff, and_assoc, exists_and_left,
      exists_eq_left] at h
    rcases h with ⟨⟨module, hmodule, htarget⟩, rfl⟩
    exact .jmp hmodule htarget
  | jmpZero => exact .jmpZero (branches_of_ok h)
  | jmpNotZero => exact .jmpNotZero (branches_of_ok h)
  | call =>
    simp only [perform, bind_ok_iff, reserve_ok_iff, branchTarget_ok_iff, get_bind, push_ok_iff,
      jump_ok_iff, and_assoc, exists_and_left, exists_eq_left, exists_const] at h
    rcases h with ⟨hroom, ⟨module, hmodule, htarget⟩, -, -, rfl⟩
    exact .call (by omega) hmodule htarget
  | vcall =>
    simp only [perform, bind_ok_iff, require_ok_iff, peek_ok_iff, frameTarget_ok_iff, get_bind,
      replace_ok_iff, enter_ok_iff, and_assoc, exists_and_left, exists_eq_left, exists_const] at h
    rcases h with ⟨-, index, hindex, target, htarget, ⟨module, hmodule, hcontains⟩, -, -, rfl⟩
    rcases cons_cons_of_peek htarget hindex with ⟨rest, hitems⟩
    simp only [hitems]
    exact .vcall hitems hmodule hcontains
  | ret =>
    simp only [perform, bind_ok_iff, require_ok_iff, peek_ok_iff, frameTarget_ok_iff, drop_ok_iff,
      enter_ok_iff, and_assoc, exists_and_left, exists_eq_left, exists_const] at h
    rcases h with ⟨-, index, hindex, target, htarget, ⟨module, hmodule, hcontains⟩, -, rfl⟩
    rcases cons_cons_of_peek htarget hindex with ⟨rest, hitems⟩
    simp only [hitems]
    exact .ret hitems hmodule hcontains
  | loadMemory =>
    simp only [perform, bind_ok_iff, activeModule_ok_iff, and_assoc, exists_and_left,
      exists_eq_left] at h
    rcases h with ⟨module, hmodule, h⟩
    split at h
    next => simp at h
    next hoffset =>
      cases hbase : module.memory.base? with
      | none => simp [hbase, throw_apply] at h
      | some base =>
        simp only [hbase, push_ok_iff] at h
        rcases h with ⟨hroom, rfl⟩
        exact .loadMemory hmodule (by omega) hbase hroom

/-! ## Faults -/

/-- A branch checks its target before it takes its condition off. -/
theorem branch_clean {onZero : Bool} : Clean (perform.branch operand onZero) m := by
  refine (reads_peek 0).bind_clean fun condition _ => ?_
  refine reads_get.bind_clean fun s _ => ?_
  have htail (next : Word) : Clean (do drop 1; jump next) m :=
    (clean_drop 1).bind fun _ m₁ _ => ⟨(), _, jump_ok_iff.2 rfl⟩
  split
  · exact (reads_branchTarget operand).bind_clean fun next _ => htail next
  · exact (reads_pure s.pc).bind_clean fun next _ => htail next

/-- An operation that faults has checked everything before it changed anything. -/
theorem perform_clean (hop : op ≠ .int) : Clean (perform table op operand) m := by
  -- what is checked comes first and only reads; what follows the first change cannot fail
  cases op with
  | nop => exact (reads_pure ()).clean
  | push => exact clean_push operand
  | pop => exact clean_drop 1
  | load =>
    refine (reads_peek 0).bind_clean fun width _ => ?_
    refine (reads_poolAddress operand).bind_clean fun a _ => ?_
    refine (reads_readMemory a width).bind_clean fun value _ => ?_
    exact clean_replace 0 value
  | store =>
    refine (reads_require 2).bind_clean fun _ hrequire => ?_
    refine (reads_peek 0).bind_clean fun width _ => ?_
    refine (reads_peek 1).bind_clean fun value _ => ?_
    refine (reads_poolAddress operand).bind_clean fun a _ => ?_
    exact clean_write_drop a value width (require_ok_iff.1 hrequire).1
  | mallocPool =>
    refine reads_reservePool.bind_clean fun _ hreserve => ?_
    refine reads_activeModule.bind_clean fun module _ => ?_
    rcases reservePool_ok_iff.1 hreserve with ⟨hroom, -⟩
    refine Clean.bind (.of_ok ⟨_, _, allocate_ok_iff.2 ⟨rfl, rfl⟩⟩) fun a m₁ hallocate => ?_
    rcases allocate_ok_iff.1 hallocate with ⟨-, rfl⟩
    exact ⟨(), _, pushPool_ok_iff.2 ⟨hroom, rfl⟩⟩
  | freePool =>
    refine reads_currentPool.bind_clean fun pool hpool => ?_
    rcases cons_of_peek (currentPool_ok_iff.1 hpool).1 with ⟨pools, hpools⟩
    refine (clean_release pool).bind fun _ m₁ hrelease => ?_
    rcases release_ok_iff.1 hrelease with ⟨heap, -, rfl⟩
    exact ⟨(), _, popPool_ok_iff.2 ⟨pool, pools, hpools, rfl⟩⟩
  | pushPtr =>
    refine (reads_poolAddress operand).bind_clean fun a _ => ?_
    exact clean_push a
  | loadPtr =>
    refine (reads_peek 0).bind_clean fun a _ => ?_
    refine (reads_readMemory a operand).bind_clean fun value _ => ?_
    exact clean_replace 0 value
  | storePtr =>
    refine (reads_require 2).bind_clean fun _ hrequire => ?_
    refine (reads_peek 1).bind_clean fun a _ => ?_
    refine (reads_peek 0).bind_clean fun value _ => ?_
    exact clean_write_drop a value operand (require_ok_iff.1 hrequire).1
  | dup =>
    refine (reads_peek operand.toNat).bind_clean fun w _ => ?_
    exact clean_push w
  | pushArray =>
    refine (reads_peek 0).bind_clean fun size hsize => ?_
    rcases cons_of_peek (peek_ok_iff.1 hsize).1 with ⟨rest, hitems⟩
    exact clean_allocate_replace size (by simp [hitems])
  | loadArray =>
    refine (reads_require 2).bind_clean fun _ hrequire => ?_
    refine (reads_peek 1).bind_clean fun base _ => ?_
    refine (reads_peek 0).bind_clean fun index _ => ?_
    refine (reads_advance base index).bind_clean fun a _ => ?_
    refine (reads_readMemory a operand).bind_clean fun value _ => ?_
    have hheight : 2 ≤ m.stack.items.length := (require_ok_iff.1 hrequire).1
    exact clean_replace_drop 1 value (by omega)
  | storeArray =>
    refine (reads_require 3).bind_clean fun _ hrequire => ?_
    refine (reads_peek 2).bind_clean fun base _ => ?_
    refine (reads_peek 1).bind_clean fun index _ => ?_
    refine (reads_advance base index).bind_clean fun a _ => ?_
    refine (reads_peek 0).bind_clean fun value _ => ?_
    exact clean_write_drop a value operand (require_ok_iff.1 hrequire).1
  | binary op =>
    refine (reads_require 2).bind_clean fun _ hrequire => ?_
    refine (reads_peek 1).bind_clean fun a _ => ?_
    refine (reads_peek 0).bind_clean fun b _ => ?_
    have hheight : 2 ≤ m.stack.items.length := (require_ok_iff.1 hrequire).1
    exact clean_replace_drop 1 _ (by omega)
  | division op =>
    refine (reads_require 2).bind_clean fun _ hrequire => ?_
    refine (reads_peek 0).bind_clean fun divisor _ => ?_
    split
    · exact (reads_throw _).bind_clean fun u hu => by cases hu
    · refine (reads_peek 1).bind_clean fun a _ => ?_
      refine (reads_peek 0).bind_clean fun b _ => ?_
      have hheight : 2 ≤ m.stack.items.length := (require_ok_iff.1 hrequire).1
      exact clean_replace_drop 1 _ (by omega)
  | unary op =>
    refine (reads_peek 0).bind_clean fun a _ => ?_
    exact clean_replace 0 _
  | int => exact absurd rfl hop
  | jmp =>
    refine (reads_branchTarget operand).bind_clean fun target _ => ?_
    exact clean_modify _
  | jmpZero => exact branch_clean
  | jmpNotZero => exact branch_clean
  | call =>
    refine (reads_reserve 2).bind_clean fun _ hreserve => ?_
    refine (reads_branchTarget operand).bind_clean fun target _ => ?_
    refine reads_get.bind_clean fun s _ => ?_
    have hroom : 2 ≤ m.stack.capacity - m.stack.items.length := (reserve_ok_iff.1 hreserve).1
    refine (clean_push s.active).bind fun _ m₁ hpush => ?_
    rcases push_ok_iff.1 hpush with ⟨-, rfl⟩
    refine ⟨(), _, bind_ok_iff.2 ⟨(), _, push_ok_iff.2 ⟨?_, rfl⟩, jump_ok_iff.2 rfl⟩⟩
    simp only [Stack.items_withItems, Stack.capacity_withItems, List.length_cons]
    omega
  | vcall =>
    refine (reads_require 2).bind_clean fun _ hrequire => ?_
    refine (reads_peek 1).bind_clean fun index _ => ?_
    refine (reads_peek 0).bind_clean fun target _ => ?_
    refine (reads_frameTarget index target).bind_clean fun _ _ => ?_
    refine reads_get.bind_clean fun s _ => ?_
    have hheight : 2 ≤ m.stack.items.length := (require_ok_iff.1 hrequire).1
    refine (clean_replace 1 s.active).bind fun _ m₁ hreplace => ?_
    rcases replace_ok_iff.1 hreplace with ⟨-, rfl⟩
    refine ⟨(), _, bind_ok_iff.2 ⟨(), _, replace_ok_iff.2 ⟨?_, rfl⟩, enter_ok_iff.2 rfl⟩⟩
    simp only [Stack.items_withItems, List.length_set]
    omega
  | ret =>
    refine (reads_require 2).bind_clean fun _ _ => ?_
    refine (reads_peek 1).bind_clean fun index _ => ?_
    refine (reads_peek 0).bind_clean fun target _ => ?_
    refine (reads_frameTarget index target).bind_clean fun _ _ => ?_
    exact (clean_drop 2).bind fun _ m₁ _ => ⟨(), _, enter_ok_iff.2 rfl⟩
  | loadMemory =>
    refine reads_activeModule.bind_clean fun module _ => ?_
    dsimp only
    split
    · exact (reads_throw _).bind_clean fun u hu => by cases hu
    · split
      · exact clean_push _
      · exact (reads_throw _).clean

end Machine
end StackMachine
